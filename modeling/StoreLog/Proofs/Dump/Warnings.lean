-- SUMMARY: The warnings of a dump run, one for each command that did not succeed.
import Mathlib.Data.List.Forall2
import StoreLog.Proofs.Dump.Run

/-!
# What a dump run warns of

A run has one warning for each command that did not succeed, in the order of the commands,
and one besides if the output directory is not made. The warnings of commands name the store.
Where the dump was to go is said only of a command that was started: the warning of one that
could not be started has its program in that place.

A runner may have events of its own. They are left out here, so that what is said is said by
the run.
-/

namespace StoreLog

/-- The same runner without events of its own. -/
def Runner.silent {σ : Type} (run : Runner σ) : Runner σ :=
  fun i t s => { run i t s with events := [] }

/-- The warnings of a run that are not about its output directory. -/
def Event.isDumpWarning : Event → Bool
  | .outputDirMissing .. => false
  | e => e.level == .warn

namespace Dump

variable {σ : Type}

/-! ## Silent runners -/

/-- One run ends as another one does that says no less. -/
structure Outcome.EndsAs (o p : Outcome σ) : Prop where
  state : o.state = p.state
  tree : o.work.tree = p.work.tree
  result : o.work.result = p.work.result
  events : o.work.events.Sublist p.work.events

theorem Outcome.EndsAs.after {o p : Outcome σ} (h : o.EndsAs p) {said heard : List Event}
    (hsaid : said.Sublist heard) : (o.after said).EndsAs (p.after heard) where
  state := h.state
  tree := h.tree
  result := h.result
  events := hsaid.append h.events

/-- Only what is said depends on a runner's events. -/
theorem runEntries_silent (run : Runner σ) (config : DumpConfig) (summary : Summary) (t : Tree)
    (s : σ) (es : List Manifest.Entry) :
    (runEntries run.silent config summary t s es).EndsAs
      (runEntries run config summary t s es) := by
  induction es generalizing summary t s with
  | nil => exact ⟨rfl, rfl, rfl, List.Sublist.refl _⟩
  | cons e es ih =>
    let turn := run (invocation config e.source) t s
    refine (ih (summary.add turn.outcome) turn.tree turn.state).after ?_
    exact (List.sublist_append_right turn.events _).cons_cons _

theorem run_silent (run : Runner σ) (config : DumpConfig) (manifest : Path) (t : Tree) (s : σ) :
    (Dump.run run.silent config manifest t s).EndsAs (Dump.run run config manifest t s) := by
  cases h : t.readText manifest with
  | error e =>
    rw [run_of_readText_error run config s h, run_of_readText_error run.silent config s h]
    exact ⟨rfl, rfl, rfl, List.Sublist.refl _⟩
  | ok content =>
    rw [run_of_readText_ok run config s h, run_of_readText_ok run.silent config s h]
    exact (runEntries_silent run config {} _ s _).after (List.Sublist.refl _)

/-! ## Warnings -/

variable {config : DumpConfig}

/-- Of what is said about an entry, a failure is the only warning. -/
theorem filter_events_entry (config : DumpConfig) (e : Manifest.Entry) (o : CommandOutcome)
    (output : Path) :
    [Event.dumping e.source output, outcomeEvent config e o].filter (·.isDumpWarning) =
      if o.isSuccess then [] else [outcomeEvent config e o] := by
  cases o <;> rfl

/-- Making the output directory gives no warning but the one that is not counted here. -/
theorem filter_events_prepare (config : DumpConfig) (es : List Manifest.Entry) (t : Tree) :
    (prepare config es t).2.filter (·.isDumpWarning) = [] := by
  have hdir : (t.ensureDir config.outputDir).events.filter (·.isDumpWarning) = [] := by
    rw [Tree.ensureDir]
    split <;> rfl
  unfold prepare
  split
  · rfl
  · simp only
    split
    · exact hdir
    · rw [List.filter_append, hdir]
      rfl

/-- The commands that did not succeed, each with the entry that it is for. -/
def failures (es : List Manifest.Entry) (outcomes : List CommandOutcome) :
    List (Manifest.Entry × CommandOutcome) :=
  (es.zip outcomes).filter (!·.2.isSuccess)

theorem failures_cons (e : Manifest.Entry) (es : List Manifest.Entry) (o : CommandOutcome)
    (outcomes : List CommandOutcome) :
    failures (e :: es) (o :: outcomes) =
      if o.isSuccess then failures es outcomes else (e, o) :: failures es outcomes := by
  cases h : o.isSuccess <;> simp [failures, h]

theorem length_failures {es : List Manifest.Entry} {outcomes : List CommandOutcome}
    (h : outcomes.length = es.length) :
    (failures es outcomes).length = outcomes.countP (!·.isSuccess) := by
  have hsnd : (es.zip outcomes).map (·.2) = outcomes := List.map_snd_zip (by omega)
  rw [failures, ← List.countP_eq_length_filter]
  conv => rhs; rw [← hsnd, List.countP_map]
  rfl

/-- Each entry adds the warning of its own command, if that failed, and no other one. -/
theorem exists_warnings_of_runEntries (run : Runner σ) (config : DumpConfig) (summary : Summary)
    (t : Tree) (seen : List (Invocation × CommandOutcome)) (s : σ) (es : List Manifest.Entry) :
    let o := runEntries run.silent.observed config summary t (seen, s) es
    ∃ outcomes : List CommandOutcome,
      o.state.1.map (·.2) = seen.map (·.2) ++ outcomes ∧
      o.work.events.filter (·.isDumpWarning) =
        (failures es outcomes).map fun f => outcomeEvent config f.1 f.2 := by
  induction es generalizing summary t seen s with
  | nil => exact ⟨[], by simp [runEntries], rfl⟩
  | cons e es ih =>
    let turn := run (invocation config e.source) t s
    obtain ⟨outcomes, hseen, hwarnings⟩ :=
      ih (summary.add turn.outcome) turn.tree
        (seen ++ [(invocation config e.source, turn.outcome)]) turn.state
    have hevents : (runEntries run.silent.observed config summary t (seen, s) (e :: es)).work.events =
        [.dumping e.source (outputPath config e.source), outcomeEvent config e turn.outcome] ++
          (runEntries run.silent.observed config (summary.add turn.outcome) turn.tree
            (seen ++ [(invocation config e.source, turn.outcome)], turn.state) es).work.events := rfl
    refine ⟨turn.outcome :: outcomes, ?_, ?_⟩
    · rw [List.map_append, List.append_assoc] at hseen
      exact hseen
    · rw [hevents, List.filter_append, hwarnings, filter_events_entry, failures_cons]
      split
      · rfl
      · rfl

/-! ## Whole runs -/

/-- A warning about a command that did not succeed names its store. It names the file that the
store was to be dumped to if the command was started, and not otherwise. -/
structure Reports (config : DumpConfig) (failure : Manifest.Entry × CommandOutcome)
    (warning : Event) : Prop where
  level : warning.level = .warn
  source : ("source", String.ofList failure.1.source) ∈ warning.fields
  output : ("output", (outputPath config failure.1.source).display) ∈ warning.fields ↔
    ∃ code, failure.2 = .exited code

theorem reports_outcomeEvent {e : Manifest.Entry} {o : CommandOutcome} (h : o.isSuccess = false) :
    Reports config (e, o) (outcomeEvent config e o) := by
  cases o with
  | succeeded => cases h
  | exited code =>
    exact ⟨rfl, by simp [outcomeEvent, Event.fields], by simp [outcomeEvent, Event.fields]⟩
  | notStarted error =>
    exact ⟨rfl, by simp [outcomeEvent, Event.fields], by simp [outcomeEvent, Event.fields]⟩

theorem forall₂_reports (config : DumpConfig) (es : List Manifest.Entry)
    (outcomes : List CommandOutcome) :
    List.Forall₂ (Reports config) (failures es outcomes)
      ((failures es outcomes).map fun f => outcomeEvent config f.1 f.2) := by
  rw [List.forall₂_map_right_iff, List.forall₂_same]
  intro f hf
  exact reports_outcomeEvent (by simpa using (List.mem_filter.1 hf).2)

variable {manifest : Path} {t : Tree} {content : Text}

theorem warnings_of_readText (run : Runner σ) (config : DumpConfig) (s : σ)
    (h : t.readText manifest = .ok content) :
    let own := Dump.run run.silent.observed config manifest t ([], s)
    own.work.events.filter (·.isDumpWarning) =
      (failures (Manifest.parse content) (own.state.1.map (·.2))).map
        fun f => outcomeEvent config f.1 f.2 := by
  intro own
  let entries := Manifest.parse content
  let prepared := prepare config entries t
  obtain ⟨outcomes, hseen, hwarnings⟩ :=
    exists_warnings_of_runEntries run config {} prepared.1 [] s entries
  have hown : own = (runEntries run.silent.observed config {} prepared.1 ([], s) entries).after
      (.manifestLoaded manifest entries.length :: prepared.2) :=
    run_of_readText_ok run.silent.observed config ([], s) h
  have houtcomes : own.state.1.map (·.2) = outcomes := by
    rw [hown]
    exact hseen
  have hbefore : (Event.manifestLoaded manifest entries.length :: prepared.2).filter
      (·.isDumpWarning) = [] := filter_events_prepare config entries t
  rw [houtcomes, ← hwarnings, hown]
  refine (List.filter_append ..).trans ?_
  rw [hbefore, List.nil_append]

/-- A run warns once for each command that did not succeed, in the order of the entries, and the
summary counts these warnings. Each of them names the store; the file that the store was to be
dumped to is named if the command was started, and not otherwise. -/
theorem warnings_of_run (run : Runner σ) (config : DumpConfig) (manifest : Path) (t : Tree)
    (s : σ) :
    let plain := Dump.run run.observed config manifest t ([], s)
    let own := Dump.run run.silent.observed config manifest t ([], s)
    let calls := plain.state.1
    let warnings := own.work.events.filter (·.isDumpWarning)
    own.EndsAs plain ∧
    match t.readText manifest with
    | .error _ => warnings = []
    | .ok content =>
      let entries := Manifest.parse content
      calls.map (·.1) = entries.map (invocation config ·.source) ∧
        List.Forall₂ (Reports config) ((entries.zip (calls.map (·.2))).filter (!·.2.isSuccess))
          warnings ∧
        ∃ summary, plain.work.result = .ok summary ∧ summary.failed = warnings.length := by
  intro plain own calls warnings
  have hends : own.EndsAs plain := run_silent run.observed config manifest t ([], s)
  refine ⟨hends, ?_⟩
  cases h : t.readText manifest with
  | error e =>
    have hown : own = _ := run_of_readText_error run.silent.observed config ([], s) h
    simp only [warnings, hown]
    rfl
  | ok content =>
    have hwarnings : warnings = (failures (Manifest.parse content) (calls.map (·.2))).map
        fun f => outcomeEvent config f.1 f.2 := by
      have hstate : own.state.1 = calls := congrArg Prod.fst hends.state
      rw [← hstate]
      exact warnings_of_readText run config s h
    obtain ⟨outcomes, hlength, hseen, hresult⟩ := exists_outcomes_of_run run config s h
    have hcalls : calls = ((Manifest.listed content).map (invocation config)).zip outcomes := hseen
    have houtcomes : calls.map (·.2) = outcomes := by
      rw [hcalls, List.map_snd_zip (by simp [hlength])]
    rw [foldl_add] at hresult
    refine ⟨map_fst_observed_parse run config s h, ?_, _, hresult, ?_⟩
    · rw [hwarnings]
      exact forall₂_reports config _ _
    · have hentries : outcomes.length = (Manifest.parse content).length := by
        rw [hlength, ← Manifest.map_source_parse, List.length_map]
      rw [hwarnings, List.length_map, houtcomes, length_failures hentries]
      exact Nat.zero_add _

/-- The warning of a command that could not be started does not name the file that the store was
to be dumped to. -/
theorem exists_warning_without_output :
    let content := "a.rocksdb\n".toList
    let t := Tree.fresh.put (sampleManifest :: Tree.fresh.workDir) (.file (Utf8.encode content))
    let outcome : CommandOutcome := .notStarted (.reported "no such program")
    let o := Dump.run (Runner.scripted [outcome]).observed .default sampleManifest t ([], 0)
    t.readText sampleManifest = .ok content ∧
      Manifest.parse content = [⟨"a.rocksdb".toList, 1⟩] ∧ o.state.1.map (·.2) = [outcome] ∧
      ∃ w, o.work.events.filter (·.isDumpWarning) = [w] ∧
        ∀ output, ("output", output) ∉ w.fields := by
  intro content t outcome o
  have hread : t.readText sampleManifest = .ok content := readText_of_read (by decide +kernel)
  have ho : o = _ := run_of_readText_ok (Runner.scripted [outcome]).observed .default ([], 0) hread
  refine ⟨hread, by decide, ?_, .dumpNotStarted "a.rocksdb".toList "cargo".toList
    (.reported "no such program"), ?_, fun output hmem => ?_⟩
  · rw [ho]
    decide +kernel
  · rw [ho]
    decide +kernel
  · simp [Event.fields] at hmem

end Dump

end StoreLog
