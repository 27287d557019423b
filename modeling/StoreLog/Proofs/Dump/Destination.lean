-- SUMMARY: Which stores are dumped to one file, and which destinations lie in the output directory.
import StoreLog.Proofs.Config.Validate
import StoreLog.Proofs.Dump.Run
import StoreLog.Proofs.Path.Entry

/-!
# Where dumps go

A dump is named after the last segment of its store's path alone. With a configuration that
was validated, the path of the output directory comes first and that name after it. This is
an entry of the directory unless the segment is no name, or the data extension makes it one of
more components. Two stores have one dump if their last segments are the same, or are so once
the one is renamed.
-/

namespace StoreLog.Dump

variable {config : DumpConfig} {source other stem d segment : Text}

/-! ## Segments -/

theorem slash_not_mem_lastSegment (source : Text) : '/' ∉ lastSegment source := by
  intro h
  have hne := List.mem_takeWhile_imp (List.mem_reverse.1 h)
  exact absurd hne (by decide)

/-- The last segment is what stands after the last slash but for those at the end. -/
theorem lastSegment_append (hd : d = [] ∨ d.getLast? = some '/') (hne : segment ≠ [])
    (hslash : '/' ∉ segment) (k : Nat) :
    lastSegment (d ++ segment ++ List.replicate k '/') = segment := by
  have hall : ∀ c ∈ segment.reverse, (c != '/') = true := by
    intro c hc
    have hcs : c ≠ '/' := fun h => hslash (h ▸ List.mem_reverse.1 hc)
    simpa using hcs
  have hslashes : ∀ c ∈ (List.replicate k '/').reverse, (c == '/') = true := by
    intro c hc
    simpa using List.eq_of_mem_replicate (List.mem_reverse.1 hc)
  have hdrop : (segment.reverse ++ d.reverse).dropWhile (· == '/') =
      segment.reverse ++ d.reverse := by
    obtain ⟨c, r, hr⟩ := List.exists_cons_of_ne_nil (mt List.reverse_eq_nil_iff.1 hne)
    have hc : (c != '/') = true := hall c (by simp [hr])
    rw [hr, List.cons_append, List.dropWhile_cons_of_neg (by simpa using hc)]
  have htake : d.reverse.takeWhile (· != '/') = [] := by
    rcases hd with rfl | hd
    · rfl
    · obtain ⟨q, rfl⟩ := List.getLast?_eq_some_iff.1 hd
      simp
  rw [lastSegment, List.reverse_append, List.reverse_append,
    List.dropWhile_append_of_pos hslashes, hdrop, List.takeWhile_append_of_pos hall, htake,
    List.append_nil, List.reverse_reverse]

/-- The segment of a store is renamed: the one extension takes the place of the other. -/
theorem fileName_of_lastSegment_eq (h : lastSegment source = stem ++ config.storeExtension) :
    fileName config source = stem ++ config.dataExtension := by
  have hstem : config.storeExtension.isSuffixOf? (lastSegment source) = some stem :=
    List.isSuffixOf?_eq_some_iff_append_eq.2 h.symm
  simp only [fileName, hstem]

/-- Any other segment is kept. -/
theorem fileName_of_not_suffix (h : ¬config.storeExtension <:+ lastSegment source) :
    fileName config source = lastSegment source := by
  have hnone : config.storeExtension.isSuffixOf? (lastSegment source) = none := by
    rw [Option.eq_none_iff_forall_ne_some]
    intro stem hstem
    exact h ⟨stem, List.isSuffixOf?_eq_some_iff_append_eq.1 hstem⟩
  simp only [fileName, hnone]

theorem fileName_cases (config : DumpConfig) (source : Text) :
    (∃ stem, lastSegment source = stem ++ config.storeExtension ∧
      fileName config source = stem ++ config.dataExtension) ∨
    (¬config.storeExtension <:+ lastSegment source ∧
      fileName config source = lastSegment source) := by
  by_cases h : config.storeExtension <:+ lastSegment source
  · obtain ⟨stem, hstem⟩ := h
    exact .inl ⟨stem, hstem.symm, fileName_of_lastSegment_eq hstem.symm⟩
  · exact .inr ⟨h, fileName_of_not_suffix h⟩

/-! ## Destinations -/

/-- The name of a dump never begins with a slash, so it does not lead out of the directory
that it is joined to. -/
theorem isAbsolute_fileName (h : config.dataExtension.IsExtension) (source : Text) :
    (Path.ofText (fileName config source)).isAbsolute = false := by
  rw [Bool.eq_false_iff, ne_eq, Path.isAbsolute_ofText]
  intro hhead
  have hsegment := slash_not_mem_lastSegment source
  rcases fileName_cases config source with ⟨stem, hstem, hname⟩ | ⟨-, hname⟩
  · rw [hname, List.head?_append] at hhead
    cases stem with
    | nil => exact absurd (h.1.symm.trans hhead) (by decide)
    | cons c stem =>
      obtain rfl : c = '/' := Option.some.inj hhead
      exact hsegment (hstem ▸ List.mem_cons_self)
  · rw [hname] at hhead
    exact hsegment (List.mem_of_head? hhead)

theorem outputPath_eq_iff (h : config.dataExtension.IsExtension) :
    outputPath config source = outputPath config other ↔
      fileName config source = fileName config other := by
  rw [outputPath, outputPath,
    Path.join_inj (isAbsolute_fileName h source) (isAbsolute_fileName h other)]
  exact Utf8.encode_inj

/-- A name is put after the output directory, with a slash between them unless the directory ends
in one. -/
theorem outputPath_of_isSound {c : Config} (h : c.IsSound) (source : Text) :
    outputPath c.dump source =
      (if c.dump.outputDir.getLast? = some Path.slash then c.dump.outputDir
        else c.dump.outputDir ++ [Path.slash]) ++ Utf8.encode (fileName c.dump source) := by
  rw [outputPath, Path.join_eq (isAbsolute_fileName h.dataExtension source),
    Path.front_of_ne_nil h.outputDir, Path.ofText]

/-- With a validated configuration, the dump of a store goes by the last segment of its path
alone, whatever leads to it and however many slashes follow it. The segment is put after the
output directory, of which nothing is lost; a store extension that it ends in is replaced by the
data extension, once. -/
theorem outputPath_eq_append (raw : RawConfig) (hd : d = [] ∨ d.getLast? = some '/')
    (hne : segment ≠ []) (hslash : '/' ∉ segment) (k : Nat) :
    let config := raw.validate.1.dump
    let destination := outputPath config (d ++ segment ++ List.replicate k '/')
    let directory := if config.outputDir.getLast? = some Path.slash then config.outputDir
      else config.outputDir ++ [Path.slash]
    (∀ stem, segment = stem ++ config.storeExtension →
        destination = directory ++ Utf8.encode (stem ++ config.dataExtension)) ∧
      (¬config.storeExtension <:+ segment → destination = directory ++ Utf8.encode segment) ∧
      config.outputDir <+: destination := by
  intro config destination directory
  have hsegment := lastSegment_append hd hne hslash k
  have hdestination : destination = directory ++ Utf8.encode (fileName config _) :=
    outputPath_of_isSound (RawConfig.isSound_settings raw) _
  refine ⟨fun stem hstem => ?_, fun hkept => ?_, ?_⟩
  · rw [hdestination, fileName_of_lastSegment_eq (hsegment.trans hstem)]
  · rw [← hsegment] at hkept
    rw [hdestination, fileName_of_not_suffix hkept, hsegment]
  · have hdir : config.outputDir <+: directory := by
      simp only [directory]
      split
      · exact List.prefix_rfl
      · exact List.prefix_append _ _
    exact hdestination ▸ hdir.trans (List.prefix_append _ _)

theorem outputPath_eq_append_repeated :
    let raw : RawConfig := { dump := {
      outputDir := some "dumps/".toList
      storeExtension := some ".a".toList
      dataExtension := some ".a.b".toList } }
    let d := "s//".toList
    let segment := "x.a.a".toList
    d.getLast? = some '/' ∧ segment ≠ [] ∧ '/' ∉ segment ∧
      segment = "x.a".toList ++ raw.validate.1.dump.storeExtension ∧
      outputPath raw.validate.1.dump (d ++ segment ++ List.replicate 2 '/') =
        Path.ofText "dumps/x.a.a.b".toList := by
  intro raw d segment
  have hd : d.getLast? = some '/' := by decide
  have hne : segment ≠ [] := by decide
  have hslash : '/' ∉ segment := by decide
  have hstem : segment = "x.a".toList ++ raw.validate.1.dump.storeExtension := by decide
  obtain ⟨hrenamed, -⟩ := outputPath_eq_append raw (.inr hd) hne hslash 2
  exact ⟨hd, hne, hslash, hstem, hrenamed _ hstem⟩

/-! ## Entries of the output directory -/

theorem isEntryOf_outputPath (h : config.dataExtension.IsExtension) :
    (outputPath config source).IsEntryOf config.outputDir ↔
      (fileName config source ≠ [] ∧ fileName config source ≠ ['.'] ∧
        fileName config source ≠ ['.', '.']) ∧ '/' ∉ fileName config source := by
  rw [outputPath, Path.isEntryOf_join_iff (isAbsolute_fileName h source), Path.isFileName_ofText,
    Path.slash_mem_ofText]

/-- With a validated configuration, the dump of a store goes directly into the output directory
exactly under these conditions on the last segment of its path: if it is renamed, it gets no slash
and does not become two dots, and if it is kept, it is not empty, a dot or two dots. -/
theorem isEntryOf_outputPath_iff (raw : RawConfig) (source : Text) :
    let config := raw.validate.1.dump
    let segment := lastSegment source
    (outputPath config source).IsEntryOf config.outputDir ↔
      (∀ stem, segment = stem ++ config.storeExtension →
        '/' ∉ config.dataExtension ∧ stem ++ config.dataExtension ≠ ['.', '.']) ∧
      (¬config.storeExtension <:+ segment →
        segment ≠ [] ∧ segment ≠ ['.'] ∧ segment ≠ ['.', '.']) := by
  intro config segment
  have hdata : config.dataExtension.IsExtension := (RawConfig.isSound_settings raw).dataExtension
  rw [isEntryOf_outputPath hdata]
  rcases fileName_cases config source with ⟨stem, hstem, hname⟩ | ⟨hkept, hname⟩
  · rw [hname]
    constructor
    · rintro ⟨⟨-, -, hdots⟩, hslash⟩
      refine ⟨fun stem' h => ?_, fun h => absurd ⟨stem, hstem.symm⟩ h⟩
      obtain rfl : stem = stem' := List.append_cancel_right (hstem.symm.trans h)
      exact ⟨fun h => hslash (List.mem_append_right _ h), hdots⟩
    · rintro ⟨h, -⟩
      obtain ⟨hslash, hdots⟩ := h stem hstem
      obtain ⟨hne, hdot⟩ := hdata.append_ne stem
      refine ⟨⟨hne, hdot, hdots⟩, fun hmem => ?_⟩
      rcases List.mem_append.1 hmem with h | h
      · have hsegment : '/' ∈ lastSegment source := hstem ▸ List.mem_append_left _ h
        exact slash_not_mem_lastSegment source hsegment
      · exact hslash h
  · rw [hname]
    constructor
    · rintro ⟨hproper, -⟩
      exact ⟨fun stem h => absurd ⟨stem, h.symm⟩ hkept, fun _ => hproper⟩
    · rintro ⟨-, hproper⟩
      exact ⟨hproper hkept, slash_not_mem_lastSegment source⟩

/-- The dump of two dots goes to the parent of the output directory. -/
theorem exists_outputPath_parent :
    let config := (RawConfig.validate {}).1.dump
    ∃ e ∈ Manifest.parse "..".toList,
      outputPath config e.source = Path.ofText "out/..".toList ∧
        ¬(outputPath config e.source).IsEntryOf config.outputDir := by
  intro config
  have hdata : config.dataExtension.IsExtension := (RawConfig.isSound_settings {}).dataExtension
  refine ⟨⟨"..".toList, 1⟩, by decide, by decide, fun h => ?_⟩
  obtain ⟨⟨-, -, hdots⟩, -⟩ := (isEntryOf_outputPath hdata).1 h
  exact hdots rfl

/-! ## Shared destinations -/

/-- A segment that is kept is the name that another one is renamed to. -/
def IsRenamedTo (config : DumpConfig) (p q : Text) : Prop :=
  ∃ stem, p = stem ++ config.storeExtension ∧ q = stem ++ config.dataExtension ∧
    ¬config.storeExtension <:+ q

theorem fileName_eq_iff :
    fileName config source = fileName config other ↔
      lastSegment source = lastSegment other ∨
        IsRenamedTo config (lastSegment source) (lastSegment other) ∨
        IsRenamedTo config (lastSegment other) (lastSegment source) := by
  constructor
  · intro h
    rcases fileName_cases config source with ⟨stem, hsource, hname⟩ | ⟨hsource, hname⟩
    · rcases fileName_cases config other with ⟨stem', hother, hname'⟩ | ⟨hother, hname'⟩
      · have hstem : stem = stem' :=
          List.append_cancel_right (hname.symm.trans (h.trans hname'))
        exact .inl (by rw [hsource, hother, hstem])
      · exact .inr (.inl ⟨stem, hsource, hname'.symm.trans (h.symm.trans hname), hother⟩)
    · rcases fileName_cases config other with ⟨stem, hother, hname'⟩ | ⟨hother, hname'⟩
      · exact .inr (.inr ⟨stem, hother, hname.symm.trans (h.trans hname'), hsource⟩)
      · exact .inl (hname.symm.trans (h.trans hname'))
  · have hrenamed {source other : Text}
        (h : IsRenamedTo config (lastSegment source) (lastSegment other)) :
        fileName config source = fileName config other := by
      obtain ⟨stem, hsource, hother, hkept⟩ := h
      rw [fileName_of_lastSegment_eq hsource, fileName_of_not_suffix hkept, hother]
    rintro (h | h | h)
    · simp only [fileName, h]
    · exact hrenamed h
    · exact (hrenamed h).symm

theorem getLast?_args_invocation (config : DumpConfig) (source : Text) :
    (invocation config source).args.getLast? = some (outputPath config source) := by
  simp [invocation]

/-- The commands of a run are those of the entries of its manifest. With a validated
configuration, two of them have one destination exactly if the last segments of their stores
are the same, or one is the name that the other is renamed to. -/
theorem destination_eq_iff {σ : Type} (run : Runner σ) (raw : RawConfig) (manifest : Path)
    (t : Tree) (s : σ) :
    let config := raw.validate.1.dump
    let calls := (Dump.run run.observed config manifest t ([], s)).state.1.map (·.1)
    let destination (source : Text) := (invocation config source).args.getLast?
    (match t.readText manifest with
      | .error _ => calls = []
      | .ok content =>
        calls = (Manifest.parse content).map fun e => invocation config e.source) ∧
      ∀ source other, destination source = destination other ↔
        lastSegment source = lastSegment other ∨
          IsRenamedTo config (lastSegment source) (lastSegment other) ∨
          IsRenamedTo config (lastSegment other) (lastSegment source) := by
  intro config calls destination
  constructor
  · cases h : t.readText manifest with
    | error e =>
      have hrun := run_of_readText_error run.observed config ([], s) h
      simp only [calls, hrun, List.map_nil]
    | ok content => exact map_fst_observed_parse run config s h
  · intro source other
    have hdata : config.dataExtension.IsExtension := (RawConfig.isSound_settings raw).dataExtension
    simp only [destination, getLast?_args_invocation, Option.some.injEq]
    rw [outputPath_eq_iff hdata, fileName_eq_iff]

/-- Two stores in different directories are dumped to one file. -/
theorem exists_shared_destination :
    let config := (RawConfig.validate {}).1.dump
    let content := "a/x.rocksdb\nb/x.rocksdb\n".toList
    let t := Tree.fresh.put (sampleManifest :: Tree.fresh.workDir) (.file (Utf8.encode content))
    let o := Dump.run (Runner.scripted []).observed config sampleManifest t ([], 0)
    let calls := o.state.1.map (·.1)
    (Manifest.parse content).map (·.source) = ["a/x.rocksdb".toList, "b/x.rocksdb".toList] ∧
      calls.map (·.args.drop config.args.length) =
        [[Path.ofText "a/x.rocksdb".toList, Path.ofText "out/x.dat".toList],
          [Path.ofText "b/x.rocksdb".toList, Path.ofText "out/x.dat".toList]] := by
  intro config content t o calls
  have hread : t.readText sampleManifest = .ok content := readText_of_read (by decide +kernel)
  have hcalls : calls = _ := map_fst_observed_parse (Runner.scripted []) config 0 hread
  refine ⟨by decide +kernel, ?_⟩
  rw [hcalls]
  decide +kernel

end StoreLog.Dump
