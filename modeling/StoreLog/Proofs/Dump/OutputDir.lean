-- SUMMARY: A dump run whose commands leave the tree alone adds directories and nothing else.
import Mathlib.Data.List.Infix
import StoreLog.Proofs.Dump.Run
import StoreLog.Proofs.Tree.Passable

/-!
# The output directory of a dump run

What a run itself does to the tree, its commands left aside: it makes sure of the output
directory if its manifest has an entry, and does nothing else. So whatever becomes of the
output directory, a run only ever adds directories on the way to it.
-/

namespace StoreLog

/-- The commands of a runner leave the tree as it is. -/
def Runner.KeepsTree {σ : Type} (run : Runner σ) : Prop :=
  ∀ i t s, (run i t s).tree = t

theorem Runner.keepsTree_scripted (outcomes : List CommandOutcome) :
    (Runner.scripted outcomes).KeepsTree :=
  fun _ _ _ => rfl

namespace Dump

variable {σ : Type} {run : Runner σ} {config : DumpConfig} {manifest : Path} {t : Tree}
  {content : Text}

theorem tree_runEntries (hrun : run.KeepsTree) (config : DumpConfig) (summary : Summary) (t : Tree)
    (s : σ) (es : List Manifest.Entry) :
    (runEntries run config summary t s es).work.tree = t := by
  induction es generalizing summary t s with
  | nil => rfl
  | cons e es ih =>
    let turn := run (invocation config e.source) t s
    calc (runEntries run config summary t s (e :: es)).work.tree
        = (runEntries run config (summary.add turn.outcome) turn.tree turn.state es).work.tree :=
          rfl
      _ = turn.tree := ih _ turn.tree turn.state
      _ = t := hrun _ t s

theorem tree_prepare (config : DumpConfig) (es : List Manifest.Entry) (t : Tree) :
    (prepare config es t).1 = if es = [] then t else (t.ensureDir config.outputDir).tree := by
  unfold prepare
  simp only [List.isEmpty_iff]
  split
  · rfl
  · cases (t.ensureDir config.outputDir).result <;> rfl

theorem tree_run_of_readText_ok (hrun : run.KeepsTree) (config : DumpConfig) (s : σ)
    (h : t.readText manifest = .ok content) :
    (Dump.run run config manifest t s).work.tree =
      if Manifest.parse content = [] then t else (t.ensureDir config.outputDir).tree := by
  rw [run_of_readText_ok run config s h, ← tree_prepare]
  exact tree_runEntries hrun config {} _ s _

/-- Making sure of a directory only ever adds directories, and so does a run whose commands leave
the tree alone: it makes sure of its output directory if its manifest can be read and has an
entry, and leaves the tree as it is if not. -/
theorem run_only_addsDirs (run : Runner σ) (hrun : run.KeepsTree) :
    (∀ (t : Tree) (p : Path), t.EnsuresDir p (t.ensureDir p)) ∧
      ∀ (config : DumpConfig) (manifest : Path) (t : Tree) (s : σ),
        let left := (Dump.run run config manifest t s).work.tree
        match t.readText manifest with
        | .error _ => left = t
        | .ok content =>
          (Manifest.parse content = [] → left = t) ∧
            (Manifest.parse content ≠ [] → left = (t.ensureDir config.outputDir).tree ∧
              Tree.AddsDirs config.outputDir.IsLeading (Tree.startOf config.outputDir t.workDir)
                t left) := by
  refine ⟨Tree.ensuresDir, fun config manifest t s => ?_⟩
  intro left
  cases h : t.readText manifest with
  | error e =>
    have hleft : left = t := congrArg (·.work.tree) (run_of_readText_error run config s h)
    exact hleft
  | ok content =>
    have hleft : left = _ := tree_run_of_readText_ok hrun config s h
    refine ⟨fun hnil => hleft.trans (if_pos hnil), fun hne => ?_⟩
    rw [if_neg hne] at hleft
    exact ⟨hleft, hleft ▸ Tree.addsDirs_ensureDir t config.outputDir⟩

/-! A run to whose output directory a path leads through a link, and up again. -/

/-- A link to the work directory. -/
def sampleLink : Entry := .link (Path.ofText ".".toList)

def workPlace (name : String) : Loc :=
  Path.ofText name.toList :: Tree.fresh.workDir

def linkedTree : Tree :=
  sampleTree.put (workPlace "here") sampleLink

def linkedConfig : DumpConfig :=
  { DumpConfig.default with outputDir := Path.ofText "here/a/../b/".toList }

theorem run_only_addsDirs_linked :
    let out := DumpConfig.default.outputDir
    let linked := linkedConfig.outputDir
    let made := linkedTree.ensureDir linked
    let run := Dump.run (Runner.scripted [.exited none]) linkedConfig sampleManifest linkedTree 0
    linkedTree.readText sampleManifest = .ok sampleContent ∧ Manifest.parse sampleContent ≠ [] ∧
      run.work.tree = made.tree ∧
      linkedTree.entryAt (workPlace "a") = none ∧ made.tree.entryAt (workPlace "a") = some .dir ∧
      linkedTree.entryAt (workPlace "b") = none ∧ made.tree.entryAt (workPlace "b") = some .dir ∧
      linkedTree.entryAt (workPlace "here") = some sampleLink ∧
      made.tree.entryAt (workPlace "here") = some sampleLink ∧
      linked ≠ [] ∧ made.result = .ok () ∧
      (∃ l, made.tree.resolve .target linked = .ok (.found l) ∧
        made.tree.entryAt l = some .dir) ∧
      made.tree.ensureDir linked = ⟨made.tree, [], .ok ()⟩ ∧
      Tree.fault? out = none ∧
      linkedTree.IsPassable (Tree.startOf out linkedTree.workDir) out.components.reverse ∧
      (linkedTree.ensureDir out).result = .ok () := by
  intro out linked made run
  have hread : linkedTree.readText sampleManifest = .ok sampleContent :=
    readText_of_read (by decide +kernel)
  have hparse : Manifest.parse sampleContent ≠ [] := by decide +kernel
  have hhere : linkedTree.entryAt (workPlace "here") = some sampleLink := by decide +kernel
  have hlinked : linked ≠ [] := by decide +kernel
  have hok : made.result = .ok () := by decide +kernel
  have hfault : Tree.fault? out = none := by decide +kernel
  have hfree : ∀ ds ∈ out.components.reverse.tails,
      linkedTree.entryAt (ds ++ Tree.startOf out linkedTree.workDir) = none ∨
        linkedTree.entryAt (ds ++ Tree.startOf out linkedTree.workDir) = some .dir := by
    decide +kernel
  have hpassable :
      linkedTree.IsPassable (Tree.startOf out linkedTree.workDir) out.components.reverse :=
    ⟨by decide +kernel, by decide +kernel, fun ds hds => hfree ds ((List.mem_tails _ _).2 hds)⟩
  obtain ⟨hensures, hrun⟩ :=
    run_only_addsDirs (Runner.scripted [.exited none]) (Runner.keepsTree_scripted _)
  have hleft := hrun linkedConfig sampleManifest linkedTree 0
  rw [hread] at hleft
  obtain ⟨htree, -⟩ := hleft.2 hparse
  have hmade := hensures linkedTree linked
  exact ⟨hread, hparse, htree, by decide +kernel, by decide +kernel, by decide +kernel,
    by decide +kernel, hhere, hmade.addsDirs.entryAt_eq_some _ _ hhere, hlinked, hok,
    hmade.resolves hlinked hok, hmade.again hok, hfault, hpassable,
    (hensures linkedTree out).result_ok hfault hpassable⟩

end Dump

end StoreLog
