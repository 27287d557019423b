-- SUMMARY: The exit codes of the two tools, as conditions on what they are given.
import StoreLog.CommandLine.Tool
import StoreLog.Proofs.CommandLine.Arguments
import StoreLog.Proofs.Config.Load
import StoreLog.Proofs.Dump.Run
import StoreLog.Proofs.Log.Outputs
import StoreLog.Proofs.Log.Policy

/-!
# Exit codes

A tool that is told what to do ends with one of two codes. Which one it is depends on the
configuration and, for `process_logs`, on whether each log succeeds in its turn, which the
failure policy has no part in; for `dump_indexes` it depends on the manifest, and nothing
that happens once that is read can change it.
-/

namespace StoreLog.CommandLine

/-! ## Codes -/

/-- The code is zero if something is so, and one if it is not. -/
def Session.ExitsBy (session : Session) (p : Prop) : Prop :=
  p ∧ session.exit = 0 ∨ ¬p ∧ session.exit = 1

namespace Session

variable {session other : Session} {p q : Prop}

theorem ExitsBy.congr (h : p ↔ q) : session.ExitsBy p ↔ session.ExitsBy q := by
  rw [ExitsBy, ExitsBy, h]

theorem ExitsBy.exit_eq (h : session.ExitsBy p) (h' : other.ExitsBy p) :
    session.exit = other.exit := by
  obtain ⟨hp, h⟩ | ⟨hp, h⟩ := h <;> obtain ⟨hp', h'⟩ | ⟨hp', h'⟩ := h'
  · rw [h, h']
  · exact absurd hp hp'
  · exact absurd hp' hp
  · rw [h, h']

end Session

variable {tool : Tool} {args : List Bytes} {s s' : Selection} {t : Tree}

/-! ## What success is -/

/-- What it takes, once the configuration is loaded. -/
def Tool.Succeeds (tool : Tool) (config : Config) (t : Tree) (s : Selection) : Prop :=
  match tool with
  | .processLogs => Log.SucceedInTurn config.scan t s.operands
  | .dumpIndexes =>
    ∃ manifest content, s.operands = [manifest] ∧ t.readText manifest = .ok content

theorem exitsBy_processLogs (scan : ScanSettings) (s : Selection) (t : Tree) :
    (processLogs scan s t).ExitsBy (Log.SucceedInTurn scan t s.operands) := by
  rw [processLogs]
  have hiff := Log.exists_report_iff_succeedInTurn scan
    (if s.has .keepGoing then .keepGoing else .failFast) t s.operands
  rw [← Session.ExitsBy.congr hiff]
  split
  · next e he => exact .inr ⟨by simp [he], rfl⟩
  · next report hreport =>
    split
    · next hfailed => exact .inr ⟨by simp [hreport, hfailed], rfl⟩
    · next hnone => exact .inl ⟨⟨report, hreport, by simpa using hnone⟩, rfl⟩

theorem exitsBy_dumpIndexes (run : Runner Printed) (dump : DumpConfig) (hs : s.operands.length = 1)
    (t : Tree) :
    (dumpIndexes run dump s t).ExitsBy
      (∃ manifest content, s.operands = [manifest] ∧ t.readText manifest = .ok content) := by
  obtain ⟨manifest, hoperands⟩ := List.length_eq_one_iff.1 hs
  rw [dumpIndexes, hoperands, List.headD_cons]
  cases hread : t.readText manifest with
  | error e =>
    rw [Dump.run_of_readText_error _ _ _ hread]
    exact .inr ⟨by simp [hread], rfl⟩
  | ok content =>
    obtain ⟨summary, hsummary⟩ := Dump.exists_ok_of_readText run
      { dump with outputDir := (s.value? .outputDir).getD dump.outputDir } ({} : Printed) hread
    simp only [hsummary]
    exact .inl ⟨⟨manifest, content, rfl, hread⟩, rfl⟩

theorem exitsBy_perform (runner : Runner Printed) (env : Environment)
    (hs : tool = .dumpIndexes → s.operands.length = 1) (t : Tree) :
    (perform tool runner env s t).ExitsBy
      (∃ loaded, (Config.loadFor t env.dirs (s.value? .config)).result = .ok loaded ∧
        tool.Succeeds loaded.config t s) := by
  rw [perform]
  cases hload : (Config.loadFor t env.dirs (s.value? .config)).result with
  | error e => exact .inr ⟨by simp, rfl⟩
  | ok loaded =>
    refine (Session.ExitsBy.congr (p := tool.Succeeds loaded.config t s) (by simp)).1 ?_
    cases tool with
    | processLogs => exact exitsBy_processLogs loaded.config.scan s t
    | dumpIndexes => exact exitsBy_dumpIndexes runner loaded.config.dump (hs rfl) t

theorem length_operands_dumpIndexes (h : Tool.dumpIndexes.usage.read args = .accepted s) :
    s.operands.length = 1 := by
  obtain ⟨hmost, hleast⟩ := Usage.operands_of_read h
  have hone := hmost 1 rfl
  have hpos := List.length_pos_iff.2 hleast
  omega

/-! ## Command lines -/

theorem run_of_accepted (runner : Runner Printed) (env : Environment) (t : Tree)
    (h : tool.usage.read args = .accepted s) :
    run tool runner env args t = perform tool runner env s t := by
  rw [run, h]

theorem perform_of_load_error {e : ConfigError} (tool : Tool) (runner : Runner Printed)
    (env : Environment)
    (h : (Config.loadFor t env.dirs (s.value? .config)).result = .error e) :
    perform tool runner env s t =
      (({ tree := t, log := [started, .configFailed e] } : Session).fail [e.headline]).upTo
        (threshold env (s.has .debug) none) := by
  rw [perform, h]

theorem exitsBy_run (runner : Runner Printed) (env : Environment) (t : Tree)
    (h : tool.usage.read args = .accepted s) :
    (run tool runner env args t).ExitsBy
      (∃ loaded, (Config.loadFor t env.dirs (s.value? .config)).result = .ok loaded ∧
        tool.Succeeds loaded.config t s) := by
  rw [run_of_accepted runner env t h]
  refine exitsBy_perform runner env (fun htool => ?_) t
  subst htool
  exact length_operands_dumpIndexes h

/-- The arguments that are the flag to keep going. -/
def keepGoingArguments : List Bytes :=
  [Path.ofText "-k".toList, Path.ofText "--keep-going".toList]

theorem shape_of_mem_keepGoingArguments {arg : Bytes} (h : arg ∈ keepGoingArguments) :
    shape Tool.processLogs.usage.choices arg = .items [.flag .keepGoing] := by
  simp only [keepGoingArguments, List.mem_cons, List.not_mem_nil, or_false] at h
  rcases h with rfl | rfl <;> decide

/-- An accepted command line ends with zero if the configuration loads and the tool succeeds,
and with one otherwise. Other flags make no difference, nor do the commands that are run. Only
a configuration file that is named can fail to load, and then nothing is done. -/
theorem exit_of_accepted (runner : Runner Printed) (env : Environment) (t : Tree)
    (h : tool.usage.read args = .accepted s) :
    let session := run tool runner env args t
    let loading := (Config.loadFor t env.dirs (s.value? .config)).result
    session.ExitsBy (∃ loaded, loading = .ok loaded ∧ tool.Succeeds loaded.config t s) ∧
    (∀ runner' args' s', tool.usage.read args' = .accepted s' → s'.operands = s.operands →
      s'.value? .config = s.value? .config →
      (run tool runner' env args' t).exit = session.exit) ∧
    (tool = .processLogs → s.has .keepGoing = false → ∀ arg ∈ keepGoingArguments,
      tool.usage.read (arg :: args) = .accepted (s.addFlag .keepGoing) ∧
        (run tool runner env (arg :: args) t).exit = session.exit) ∧
    ((∃ e, loading = .error e) ↔ ∃ p, s.value? .config = some p ∧ ¬Config.IsAccepted t p) ∧
    (s.value? .config = none → ∃ loaded, loading = .ok loaded ∧
      (¬Config.IsAccepted t (PlatformPaths.resolve env.dirs).configFile →
        loaded.config = .default)) ∧
    (∀ e, loading = .error e → session.tree = t ∧
      ∀ runner', run tool runner' env args t = session) := by
  intro session loading
  have hexits := exitsBy_run runner env t h
  have hsame (runner' : Runner Printed) (args' : List Bytes) (s' : Selection)
      (h' : tool.usage.read args' = .accepted s') (hoperands : s'.operands = s.operands)
      (hconfig : s'.value? .config = s.value? .config) :
      (run tool runner' env args' t).exit = session.exit := by
    have hexits' := exitsBy_run runner' env t h'
    have hsucceeds (config : Config) : tool.Succeeds config t s' = tool.Succeeds config t s := by
      cases tool <;> simp only [Tool.Succeeds, hoperands]
    simp only [hconfig, hsucceeds] at hexits'
    exact hexits'.exit_eq hexits
  refine ⟨hexits, hsame, fun htool hnot arg harg => ?_, Config.loadFor_fails_iff .., ?_, ?_⟩
  · subst htool
    have hread := Usage.read_flag_cons (shape_of_mem_keepGoingArguments harg) h hnot
    exact ⟨hread, hsame runner _ _ hread rfl rfl⟩
  · intro hnone
    refine ⟨_, ?_, Config.load_of_not_isAccepted⟩
    exact (congrArg (fun named => (Config.loadFor t env.dirs named).result) hnone).trans
      (Config.loadFor_none t env.dirs)
  · intro e he
    have hperform (runner' : Runner Printed) := perform_of_load_error tool runner' env he
    refine ⟨?_, fun runner' => ?_⟩
    · exact congrArg Session.tree ((run_of_accepted runner env t h).trans (hperform runner))
    · rw [run_of_accepted runner' env t h, hperform runner', ← hperform runner,
        ← run_of_accepted runner env t h]

/-- A user without a configuration file. -/
def sampleEnvironment : Environment where
  dirs := some { home := Path.ofText "/work".toList }

/-- A runner of commands that do nothing. -/
def idleRunner : Runner Printed := fun _ t printed => ⟨t, printed, [], .succeeded⟩

/-- One log that is processed, without a configuration and with one that is not there. -/
theorem exit_of_accepted_log :
    let t := Log.acceptedTree
    let session (args : List Bytes) := run .processLogs idleRunner sampleEnvironment args t
    let missing := [Path.ofText "-c".toList, Path.ofText ['x'], Log.sampleLog]
    (session [Log.sampleLog]).exit = 0 ∧
      (∀ arg ∈ keepGoingArguments, (session [arg, Log.sampleLog]).exit = 0) ∧
      (session missing).exit = 1 ∧ (session missing).tree = t := by
  have hread : Tool.processLogs.usage.read [Log.sampleLog] =
      .accepted { operands := [Log.sampleLog] } := by decide +kernel
  have hreadMissing : Tool.processLogs.usage.read
      [Path.ofText "-c".toList, Path.ofText ['x'], Log.sampleLog] =
      .accepted { settings := [(.config, Path.ofText ['x'])], operands := [Log.sampleLog] } := by
    decide +kernel
  have hdefault : ¬Config.IsAccepted Log.acceptedTree
      (PlatformPaths.resolve sampleEnvironment.dirs).configFile :=
    Config.not_isAccepted_of_readText (e := .os .notFound) (by decide +kernel)
  have hmissing : ¬Config.IsAccepted Log.acceptedTree (Path.ofText ['x']) :=
    Config.not_isAccepted_of_readText (e := .os .notFound) (by decide +kernel)
  have hone : (Log.process .default Log.acceptedTree Log.sampleLog).result.toOption.map
      (·.matchesWritten) = some 1 := by decide +kernel
  obtain ⟨summary, hsummary, -⟩ := exists_ok_of_toOption_map hone
  intro t session missing
  obtain ⟨hexits, -, hkeep, -, hnone, -⟩ := exit_of_accepted idleRunner sampleEnvironment t hread
  obtain ⟨hexitsMissing, -, -, hfails, -, hleft⟩ :=
    exit_of_accepted idleRunner sampleEnvironment t hreadMissing
  have hzero : (session [Log.sampleLog]).exit = 0 := by
    obtain ⟨-, hzero⟩ | ⟨hnot, -⟩ := hexits
    · exact hzero
    · obtain ⟨loaded, hloaded, hconfig⟩ := hnone rfl
      refine absurd ⟨loaded, hloaded, ?_⟩ hnot
      rw [hconfig hdefault]
      exact ⟨⟨summary, hsummary⟩, trivial⟩
  obtain ⟨e, he⟩ := hfails.2 ⟨_, rfl, hmissing⟩
  refine ⟨hzero, fun arg harg => (hkeep rfl rfl arg harg).2.trans hzero, ?_, (hleft e he).1⟩
  obtain ⟨⟨loaded, hloaded, -⟩, -⟩ | ⟨-, hone⟩ := hexitsMissing
  · cases he.symm.trans hloaded
  · exact hone

end StoreLog.CommandLine
