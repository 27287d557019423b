-- SUMMARY: The commands of a dump run and the counts of its summary, for every runner.
import Mathlib.Data.List.Basic
import StoreLog.Dump.Run
import StoreLog.Proofs.Manifest
import StoreLog.Proofs.Text.Utf8

/-!
# The commands of a dump run

A run of a readable manifest invokes one command for each store that is listed, in
order. Which commands these are depends on the manifest and the configuration alone:
neither what comes of a command nor the output directory has a say in it. The summary
counts the outcomes.
-/

namespace StoreLog

/-- The same runner, with a list of the invocations it was given and what came of them. -/
def Runner.observed {σ : Type} (run : Runner σ) : Runner (List (Invocation × CommandOutcome) × σ) :=
  fun i t (seen, s) =>
    let turn := run i t s
    ⟨turn.tree, (seen ++ [(i, turn.outcome)], turn.state), turn.events, turn.outcome⟩

namespace Dump

variable {σ : Type}

/-! ## Summaries -/

/-- Further outcomes count as what they are, each of them as one invocation. -/
theorem foldl_add (outcomes : List CommandOutcome) (s : Summary) :
    outcomes.foldl Summary.add s =
      { invoked := s.invoked + outcomes.length
        succeeded := s.succeeded + outcomes.countP (·.isSuccess)
        failed := s.failed + outcomes.countP (!·.isSuccess) } := by
  induction outcomes generalizing s with
  | nil => rfl
  | cons o outcomes ih =>
    rw [List.foldl_cons, ih]
    cases h : o.isSuccess <;> simp [Summary.add, h, Nat.add_assoc, Nat.add_comm 1]

theorem length_eq_countP_add (outcomes : List CommandOutcome) :
    outcomes.length = outcomes.countP (·.isSuccess) + outcomes.countP (!·.isSuccess) := by
  simpa using List.length_eq_countP_add_countP (·.isSuccess) (l := outcomes)

/-! ## The entries of a manifest -/

/-- Nothing but the observations depends on a runner's being observed. -/
theorem runEntries_observed (run : Runner σ) (config : DumpConfig) (summary : Summary) (t : Tree)
    (seen : List (Invocation × CommandOutcome)) (s : σ) (es : List Manifest.Entry) :
    let o := runEntries run.observed config summary t (seen, s) es
    ⟨o.work, o.state.2⟩ = runEntries run config summary t s es := by
  induction es generalizing summary t seen s with
  | nil => rfl
  | cons e es ih =>
    simp only [runEntries, Outcome.after]
    rw [← ih]
    rfl

/-- Every entry is invoked once, in order, and the summary counts what came of them. -/
theorem exists_outcomes_of_runEntries (run : Runner σ) (config : DumpConfig) (summary : Summary)
    (t : Tree) (seen : List (Invocation × CommandOutcome)) (s : σ) (es : List Manifest.Entry) :
    let o := runEntries run.observed config summary t (seen, s) es
    ∃ outcomes : List CommandOutcome, outcomes.length = es.length ∧
      o.state.1 = seen ++ (es.map (invocation config ·.source)).zip outcomes ∧
      o.work.result = .ok (outcomes.foldl Summary.add summary) := by
  -- The tree and the state that the commands so far have left are those of the next one.
  induction es generalizing summary t seen s with
  | nil => exact ⟨[], rfl, by simp [runEntries], rfl⟩
  | cons e es ih =>
    let turn := run (invocation config e.source) t s
    obtain ⟨outcomes, hlength, hseen, hresult⟩ :=
      ih (summary.add turn.outcome) turn.tree
        (seen ++ [(invocation config e.source, turn.outcome)]) turn.state
    refine ⟨turn.outcome :: outcomes, congrArg (· + 1) hlength, ?_, hresult⟩
    rw [List.map_cons, List.zip_cons_cons, List.append_cons]
    exact hseen

/-! ## Whole runs -/

variable {config : DumpConfig} {manifest : Path} {t : Tree} {content : Text}

theorem readText_of_read (h : t.read manifest = .ok (Utf8.encode content)) :
    t.readText manifest = .ok content := by
  simp only [Tree.readText, h, Utf8.decode_encode]

theorem run_of_readText_error {e : IoError} (run : Runner σ) (config : DumpConfig) (s : σ)
    (h : t.readText manifest = .error e) :
    Dump.run run config manifest t s = ⟨⟨t, [], .error (.manifest manifest e)⟩, s⟩ := by
  simp only [Dump.run, h]

theorem run_of_readText_ok (run : Runner σ) (config : DumpConfig) (s : σ)
    (h : t.readText manifest = .ok content) :
    let entries := Manifest.parse content
    let prepared := prepare config entries t
    Dump.run run config manifest t s =
      (runEntries run config {} prepared.1 s entries).after
        (.manifestLoaded manifest entries.length :: prepared.2) := by
  simp only [Dump.run, h]

/-- An observed run is the run that is observed. -/
theorem run_observed (run : Runner σ) (config : DumpConfig) (manifest : Path) (t : Tree) (s : σ) :
    let o := Dump.run run.observed config manifest t ([], s)
    ⟨o.work, o.state.2⟩ = Dump.run run config manifest t s := by
  cases h : t.readText manifest with
  | error e => rw [run_of_readText_error run config s h, run_of_readText_error _ config _ h]
  | ok content =>
    rw [run_of_readText_ok run config s h, run_of_readText_ok _ config _ h,
      ← runEntries_observed run config {} _ [] s]
    rfl

/-- The commands of a run are those of the listed stores. -/
theorem exists_outcomes_of_run (run : Runner σ) (config : DumpConfig) (s : σ)
    (h : t.readText manifest = .ok content) :
    let o := Dump.run run.observed config manifest t ([], s)
    ∃ outcomes : List CommandOutcome, outcomes.length = (Manifest.listed content).length ∧
      o.state.1 = ((Manifest.listed content).map (invocation config)).zip outcomes ∧
      o.work.result = .ok (outcomes.foldl Summary.add {}) := by
  obtain ⟨outcomes, hlength, hseen, hresult⟩ := exists_outcomes_of_runEntries run config {}
    (prepare config (Manifest.parse content) t).1 [] s (Manifest.parse content)
  rw [← Manifest.map_source_parse, List.map_map, List.length_map, run_of_readText_ok _ config _ h]
  exact ⟨outcomes, hlength, hseen, hresult⟩

/-- A manifest that can be read is all that a run needs. -/
theorem exists_ok_of_readText (run : Runner σ) (config : DumpConfig) (s : σ)
    (h : t.readText manifest = .ok content) :
    ∃ summary, (Dump.run run config manifest t s).work.result = .ok summary := by
  obtain ⟨outcomes, -, -, hresult⟩ := exists_outcomes_of_run run config s h
  rw [← run_observed run config manifest t s]
  exact ⟨_, hresult⟩

theorem map_fst_observed (run : Runner σ) (config : DumpConfig) (s : σ)
    (h : t.readText manifest = .ok content) :
    (Dump.run run.observed config manifest t ([], s)).state.1.map (·.1) =
      (Manifest.listed content).map (invocation config) := by
  obtain ⟨outcomes, hlength, hseen, -⟩ := exists_outcomes_of_run run config s h
  rw [hseen, List.map_fst_zip (by simp [hlength])]

theorem map_fst_observed_parse (run : Runner σ) (config : DumpConfig) (s : σ)
    (h : t.readText manifest = .ok content) :
    (Dump.run run.observed config manifest t ([], s)).state.1.map (·.1) =
      (Manifest.parse content).map fun e => invocation config e.source := by
  rw [map_fst_observed run config s h, ← Manifest.map_source_parse, List.map_map]
  rfl

/-- A run of a manifest that can be read has a result, whatever its runner does. The commands
are those of the listed stores, with any other runner and in any other tree in which the
manifest reads the same, be there an output directory or not. A run of a manifest that
cannot be read does nothing. -/
theorem run_invokes (run : Runner σ) (config : DumpConfig) (manifest : Path) (t : Tree) (s : σ) :
    let plain := Dump.run run config manifest t s
    let observed := Dump.run run.observed config manifest t ([], s)
    plain = ⟨observed.work, observed.state.2⟩ ∧
    match t.readText manifest with
    | .error e =>
      plain = ⟨⟨t, [], .error (.manifest manifest e)⟩, s⟩ ∧ observed.state.1 = []
    | .ok content =>
      ∃ summary, plain.work.result = .ok summary ∧
        observed.state.1.map (·.1) = (Manifest.listed content).map (fun store =>
          { program := config.program
            args := config.args.map Utf8.encode ++
              [Utf8.encode store, outputPath config store] }) ∧
        summary.invoked = (Manifest.listed content).length ∧
        summary.invoked = summary.succeeded + summary.failed ∧
        summary.succeeded = observed.state.1.countP (·.2 == .succeeded) ∧
        ∀ {τ : Type} (other : Runner τ) (u : Tree) (x : τ), u.readText manifest = .ok content →
          (Dump.run other.observed config manifest u ([], x)).state.1.map (·.1) =
            observed.state.1.map (·.1) := by
  intro plain observed
  have hplain : plain = ⟨observed.work, observed.state.2⟩ :=
    (run_observed run config manifest t s).symm
  refine ⟨hplain, ?_⟩
  cases h : t.readText manifest with
  | error e =>
    refine ⟨run_of_readText_error run config s h, ?_⟩
    have hobserved : observed = _ := run_of_readText_error run.observed config ([], s) h
    rw [hobserved]
  | ok content =>
    obtain ⟨outcomes, hlength, hseen, hresult⟩ := exists_outcomes_of_run run config s h
    have hcount : observed.state.1.countP (·.2 == .succeeded) =
        outcomes.countP (·.isSuccess) := by
      have hsnd : observed.state.1.map (·.2) = outcomes := by
        rw [hseen, List.map_snd_zip (by simp [hlength])]
      rw [← hsnd, List.countP_map]
      rfl
    rw [foldl_add] at hresult
    refine ⟨_, (congrArg (·.work.result) hplain).trans hresult, map_fst_observed run config s h,
      ?_, ?_, ?_, fun other u x hu => ?_⟩
    · simp [hlength]
    · simpa using length_eq_countP_add outcomes
    · simp [hcount]
    · rw [map_fst_observed other config x hu]
      exact (map_fst_observed run config s h).symm

/-! A run in which nothing works, the output directory included. -/

def sampleManifest : Path := Path.ofText "stores.txt".toList

def sampleContent : Text := "\n a.rocksdb\r\n\nb\t\n".toList

/-- A fresh tree with a manifest of two stores. -/
def sampleTree : Tree :=
  Tree.fresh.put (sampleManifest :: Tree.fresh.workDir) (.file (Utf8.encode sampleContent))

/-- The same tree with a file in the place of the output directory. -/
def blockedTree : Tree :=
  sampleTree.put (DumpConfig.default.outputDir :: Tree.fresh.workDir) (.file [])

theorem run_invokes_blocked :
    let failing := Runner.scripted [.exited (some 1), .notStarted .nulInCommand]
    let calls (run : Runner Nat) (t : Tree) :=
      (Dump.run run.observed .default sampleManifest t ([], 0)).state.1.map (·.1)
    sampleTree.readText sampleManifest = .ok sampleContent ∧
      blockedTree.readText sampleManifest = .ok sampleContent ∧
      (blockedTree.ensureDir DumpConfig.default.outputDir).result = .error (.os .alreadyExists) ∧
      (calls (.scripted []) sampleTree).length = 2 ∧
      calls failing blockedTree = calls (.scripted []) sampleTree := by
  have hread : sampleTree.readText sampleManifest = .ok sampleContent :=
    readText_of_read (by decide +kernel)
  have hblocked : blockedTree.readText sampleManifest = .ok sampleContent :=
    readText_of_read (by decide +kernel)
  have hlisted : (Manifest.listed sampleContent).length = 2 := by decide +kernel
  intro failing calls
  obtain ⟨-, h⟩ := run_invokes (.scripted []) .default sampleManifest sampleTree 0
  rw [hread] at h
  obtain ⟨_, -, hcalls, -, -, -, hsame⟩ := h
  refine ⟨hread, hblocked, rfl, ?_, hsame failing blockedTree 0 hblocked⟩
  exact (congrArg List.length hcalls).trans (by simpa using hlisted)

end Dump

end StoreLog
