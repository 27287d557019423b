-- SUMMARY: What a processed or failed log leaves of the tree, output by output.
import StoreLog.Proofs.Log.Process
import StoreLog.Proofs.Scan.Payloads

/-!
# What processing a log leaves

After a success, the two outputs agree with one another, with the summary and with
the log as it was. After a failure, nothing has changed but, perhaps, the payload
file, which holds what was scanned up to the failure.
-/

namespace StoreLog

/-! ## A file that was put -/

namespace Tree

variable {t : Tree} {q : Path} {l m : Loc} {b : Bytes} {x : Bool}

theorem IsFilePlace.changesOnly_put (ht : t.IsLinkFree)
    (hq : Path.isFileName (Path.leaf q) = true) (h : t.IsFilePlace q l) :
    ChangesOnly t (t.put l (.file b x)) q := by
  refine ⟨workDir_put .., l, ?_, fun m hm => entryAt_put_ne hm _⟩
  refine resolve_of_reaches (ht.put l rfl) hq ?_ ?_ .entry
  · exact reaches_put_file.2 h.reaches
  · simp [entryAt_put_self h.hasRoom]

theorem IsFilePlace.hasFile_put (ht : t.IsLinkFree)
    (hq : Path.isFileName (Path.leaf q) = true) (h : t.IsFilePlace q l) :
    (t.put l (.file b x)).HasFile q b := by
  exact hasFile_of_reaches (ht.put l rfl) hq (reaches_put_file.2 h.reaches)
    (entryAt_put_self h.hasRoom _)

/-- A file stays as it is when another one is put. -/
theorem IsFilePlace.hasFile_put_ne (ht : t.IsLinkFree) {c : Bytes} {y : Bool}
    (hq : Path.isFileName (Path.leaf q) = true) (h : t.IsFilePlace q l) (hne : l ≠ m) :
    ((t.put l (.file b x)).put m (.file c y)).HasFile q b := by
  refine hasFile_of_reaches (l := l) (x := x) ((ht.put l rfl).put m rfl) hq ?_ ?_
  · exact reaches_put_file.2 (reaches_put_file.2 h.reaches)
  · rw [entryAt_put_ne hne, entryAt_put_self h.hasRoom]

end Tree

namespace Log

open StoreLog.Tree Outputs

variable {settings : ScanSettings} {t : Tree} {log : Path}

def sampleLog : Path := Path.ofText ['a', '.', 'l', 'o', 'g']

/-- A fresh tree with a log that has one payload line. -/
def sampleTree (payload : String) : Tree :=
  fresh.put (sampleLog :: fresh.workDir)
    (.file (Utf8.encode ("dev server ready\nPHRASEMATCH " ++ payload ++ "\n").toList))

theorem isLinkFree_sampleTree (payload : String) : (sampleTree payload).IsLinkFree :=
  isLinkFree_fresh.put _ rfl

theorem isPlainFor_of_lookAt_eq_none (ht : t.IsLinkFree)
    (h : ∀ out ∈ Outputs.paths log, t.lookAt out = none) : t.IsPlainFor log where
  linkFree := ht
  not_device out hout v := by simp [h out hout]

theorem isPlainFor_sampleTree (payload : String) : (sampleTree payload).IsPlainFor sampleLog := by
  have hnone : ∀ out ∈ Outputs.paths sampleLog, fresh.lookAt out = none := by decide +kernel
  exact (isPlainFor_of_lookAt_eq_none isLinkFree_fresh hnone).put_file _ _ false

/-- With a payload that is accepted. -/
def acceptedTree : Tree :=
  sampleTree "[[\x7b\"store\":\x7b\"path\":\"x\"\x7d\x7d]]"

/-! ## Success -/

/-- A source that is accepted is a file that was read to its end, and what is said of its
lines is what scanning its content gives. -/
theorem exists_content_of_reference_ok {source : Source} {b : Bytes} {s : ScanSummary}
    (hsource : t.source log = .ok source)
    (hscan : Scan.reference settings log source.lines = (b, .ok s)) :
    ∃ content, source = { content } ∧ t.read log = .ok content ∧
      (Scan.run settings log { content } .unlimited).result = .ok s ∧
      (Scan.run settings log { content } .unlimited).sink.written = b := by
  obtain ⟨hfirst, -, -⟩ := Scan.reference_eq_ok_iff.1 hscan
  have hf := Scan.fault_eq_none_of_firstFault? hfirst
  obtain ⟨content, fault⟩ := source
  obtain rfl : fault = none := hf
  obtain ⟨hwritten, hresult⟩ :=
    Scan.run_of_isReliable settings log { content } Sink.isReliable_unlimited
  rw [hscan] at hwritten hresult
  exact ⟨content, rfl, by simp [Tree.read, hsource], hresult, hwritten⟩

/-- After a success, the payload file has one line for each payload, the index has the
paths of the payloads in increasing order, and both are what the log as it was gives. -/
theorem outputs_of_process_ok {summary : ScanSummary} (ht : t.IsPlainFor log)
    (h : (process settings t log).result = .ok summary) :
    let after := (process settings t log).tree
    let outputs := Outputs.ofLog log
    ∃ (content : Bytes) (payloads : List Text),
      t.read log = .ok content ∧
      after.HasFile outputs.ljson (payloads.flatMap fun p => Utf8.encode p ++ [lineFeed]) ∧
      payloads.length = summary.matchesWritten ∧
      (∀ p ∈ payloads, p ≠ [] ∧ Text.trim p = p ∧ lineFeed ∉ Utf8.encode p ∧
        ∃ records, Payload.parse p = .ok records) ∧
      (∀ path, path ∈ summary.storePaths ↔
        ∃ p ∈ payloads, ∃ records, Payload.parse p = .ok records ∧
          path ∈ records.map (·.store.path)) ∧
      after.HasFile outputs.idx
        (summary.storePaths.toList.flatMap fun path => Utf8.encode path ++ [lineFeed]) ∧
      (summary.storePaths.toList.map Utf8.encode).Pairwise (· < ·) ∧
      (let scan := Scan.run settings log { content } .unlimited
       scan.result = .ok summary ∧ after.HasFile outputs.ljson scan.sink.written) ∧
      after.HasFile outputs.idx (StoreIndex.write summary.storePaths .unlimited).1.written := by
  intro after outputs
  have hend := process_ending settings ht
  rw [h] at hend
  have hfinal : (process settings t log).tree = after := rfl
  rw [hfinal] at hend
  clear_value after
  cases hend with
  | @done source l m x y b _ hsource hl hscan hm =>
    obtain ⟨content, rfl, hread, hresult, hwritten⟩ := exists_content_of_reference_ok hsource hscan
    have hljson := hl.hasFile_put_ne (b := b) (x := x) (c := StoreIndex.render summary.storePaths)
      (y := y) ht.linkFree (isFileName_ljson _) (hl.reaches.ljson_ne_idx hm.reaches)
    have hm' : (t.put l (.file b x)).IsFilePlace (Outputs.ofLog log).idx m :=
      isFilePlace_put_file.2 hm
    have hidx := hm'.hasFile_put (b := StoreIndex.render summary.storePaths) (x := y)
      (ht.linkFree.put l rfl) (isFileName_idx _)
    obtain ⟨hfirst, hb, rfl⟩ := Scan.reference_eq_ok_iff.1 hscan
    refine ⟨content, Scan.payloads settings (Source.lines { content }), hread, hb ▸ hljson, rfl,
      ?_, ?_, hidx, StoreIndex.pairwise_encode _, ⟨hresult, hwritten ▸ hljson⟩, ?_⟩
    · intro p hp
      obtain ⟨records, hrecords⟩ := Scan.exists_parse_of_mem_payloads hfirst hp
      refine ⟨Payload.ne_nil_of_parse hrecords, Scan.trim_of_mem_payloads hp, ?_, records, hrecords⟩
      exact Scan.lineFeed_not_mem_of_mem_payloads hp
    · exact fun path => Scan.mem_storePaths_summary_iff
    · obtain ⟨hwritten, -⟩ := StoreIndex.write_of_isReliable
        (Scan.summary settings (Source.lines { content })).storePaths Sink.isReliable_unlimited
      rw [hwritten, Sink.taken_unlimited, List.nil_append]
      exact hidx

theorem outputs_of_process_ok_sample :
    let t := sampleTree "[[\x7b\"store\":\x7b\"path\":\"x\"\x7d\x7d]]"
    let w := process .default t sampleLog
    ∃ summary, w.result = .ok summary ∧ summary.matchesWritten = 1 ∧ ∃ payloads : List Text,
      payloads.length = summary.matchesWritten ∧
      w.tree.HasFile (Outputs.ofLog sampleLog).ljson
        (payloads.flatMap fun p => Utf8.encode p ++ [lineFeed]) ∧
      w.tree.HasFile (Outputs.ofLog sampleLog).idx
        (summary.storePaths.toList.flatMap fun path => Utf8.encode path ++ [lineFeed]) := by
  have hone : (process .default (sampleTree "[[\x7b\"store\":\x7b\"path\":\"x\"\x7d\x7d]]")
      sampleLog).result.toOption.map (·.matchesWritten) = some 1 := by decide +kernel
  intro t w
  cases hr : w.result with
  | error e =>
    rw [hr] at hone
    cases hone
  | ok summary =>
    obtain ⟨_, payloads, -, hljson, hlength, -, -, hidx, -⟩ :=
      outputs_of_process_ok (isPlainFor_sampleTree _) hr
    rw [hr] at hone
    exact ⟨summary, rfl, Option.some.inj hone, payloads, hlength, hljson, hidx⟩

/-! ## Failure -/

/-- What a failure leaves, by what has failed: a log that is not opened and a payload
file that is not created leave the tree as it was, and all else changes the payload
file alone. -/
theorem tree_of_process_error {e : Failure} (ht : t.IsPlainFor log)
    (h : (process settings t log).result = .error e) :
    let after := (process settings t log).tree
    let outputs := Outputs.ofLog log
    ((∃ err, e = .io log "open log" err ∨ e = .output outputs.ljson err) → after = t) ∧
    (∀ err, e = .scan err →
      ChangesOnly t after outputs.ljson ∧ after.lookAt outputs.idx = t.lookAt outputs.idx ∧
      ∃ source n, t.source log = .ok source ∧
        Scan.firstFault? settings log source.lines = some (n, err) ∧
        after.HasFile outputs.ljson
          ((Scan.payloads settings (source.lines.take n)).flatMap fun p =>
            Utf8.encode p ++ [lineFeed])) ∧
    (∀ err, e = .output outputs.idx err →
      ChangesOnly t after outputs.ljson ∧
      ∃ content summary, t.read log = .ok content ∧
        (let scan := Scan.run settings log { content } .unlimited
         scan.result = .ok summary ∧ after.HasFile outputs.ljson scan.sink.written)) ∧
    ((∃ err, e = .io log "open log" err) ∨ (∃ err, e = .output outputs.ljson err) ∨
      (∃ err, e = .scan err) ∨ ∃ err, e = .output outputs.idx err) := by
  intro after outputs
  have hend := process_ending settings ht
  rw [h] at hend
  have hfinal : (process settings t log).tree = after := rfl
  rw [hfinal] at hend
  clear_value after
  have hname : outputs.ljson ≠ outputs.idx := ljson_append_ne_idx _
  cases hend with
  | notOpened hopen =>
    refine ⟨fun _ => rfl, fun err he => ?_, fun err he => ?_, .inl ⟨_, rfl⟩⟩
    · cases he
    · cases he
  | noPayloadFile =>
    refine ⟨fun _ => rfl, fun err he => ?_, fun err he => ?_, .inr (.inl ⟨_, rfl⟩)⟩
    · cases he
    · exact absurd (Failure.output.inj he).1 hname
  | @scanFailed source l x b err hsource hl hscan =>
    obtain ⟨n, hfirst, rfl⟩ := Scan.reference_eq_error_iff.1 hscan
    refine ⟨?_, fun err' he => ?_, fun err' he => ?_, .inr (.inr (.inl ⟨_, rfl⟩))⟩
    · rintro ⟨err', he | he⟩ <;> cases he
    · obtain rfl := Failure.scan.inj he
      refine ⟨hl.changesOnly_put ht.linkFree (isFileName_ljson _), ?_, source, n, hsource, hfirst,
        hl.hasFile_put ht.linkFree (isFileName_ljson _)⟩
      refine lookAt_congr ht.linkFree (ht.linkFree.put l rfl) (sameDirs_put_file t l _ x)
        (isFileName_idx _) fun m hm => ?_
      exact entryAt_put_ne (hl.reaches.ljson_ne_idx hm).symm _
    · cases he
  | @noIndex source l x b s err hsource hl hscan =>
    refine ⟨?_, fun err' he => ?_, fun err' _ => ?_, .inr (.inr (.inr ⟨_, rfl⟩))⟩
    · rintro ⟨err', he | he⟩
      · cases he
      · exact absurd (Failure.output.inj he).1.symm hname
    · cases he
    · obtain ⟨content, rfl, hread, hresult, hwritten⟩ :=
        exists_content_of_reference_ok hsource hscan
      refine ⟨hl.changesOnly_put ht.linkFree (isFileName_ljson _), content, s, hread, hresult, ?_⟩
      rw [hwritten]
      exact hl.hasFile_put ht.linkFree (isFileName_ljson _)

theorem tree_of_process_error_sample :
    let t := sampleTree "[]"
    let w := process .default t sampleLog
    ∃ err, w.result = .error (.scan err) ∧ ChangesOnly t w.tree (Outputs.ofLog sampleLog).ljson ∧
      w.tree.lookAt (Outputs.ofLog sampleLog).idx = t.lookAt (Outputs.ofLog sampleLog).idx ∧
      ∃ source n, t.source sampleLog = .ok source ∧
        Scan.firstFault? .default sampleLog source.lines = some (n, err) := by
  have hr : (match (process .default (sampleTree "[]") sampleLog).result with
      | .ok _ => none
      | .error e => some e) =
      some (.scan (.payload sampleLog 2 (.unexpectedShape Payload.emptyArray))) := by decide +kernel
  intro t w
  cases hw : w.result with
  | ok summary =>
    rw [hw] at hr
    cases hr
  | error e =>
    rw [hw] at hr
    obtain rfl := Option.some.inj hr
    obtain ⟨-, hscan, -, -⟩ := tree_of_process_error (isPlainFor_sampleTree _) hw
    obtain ⟨honly, hidx, source, n, hsource, hfirst, -⟩ := hscan _ rfl
    exact ⟨_, rfl, honly, hidx, source, n, hsource, hfirst⟩

end Log

end StoreLog
