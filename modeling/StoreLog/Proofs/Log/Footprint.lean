-- SUMMARY: Processing a log changes the places of its outputs and depends on those on its paths.
import StoreLog.Proofs.Log.Process
import StoreLog.Proofs.Tree.Alike

/-!
# The footprint of a log

Processing a log writes at the paths of its two outputs and nowhere else. In a tree without
links, what comes of it depends on no more than the places that lead to a log with a normal
path and to its outputs.
-/

namespace StoreLog

open StoreLog.Tree Outputs

namespace Work

variable {ε α β : Type} {S : Loc → Prop}

/-- Two pieces of work with one result, that leave trees that look alike. -/
structure Alike (S : Loc → Prop) (w w' : Work ε α) : Prop where
  result : w'.result = w.result
  tree : Tree.Alike S w.tree w'.tree

theorem Alike.andThen {w w' : Work ε α} {next : Tree → α → Work ε β} (h : Alike S w w')
    (hnext : ∀ a, Alike S (next w.tree a) (next w'.tree a)) :
    Alike S (w.andThen next) (w'.andThen next) := by
  rw [Work.andThen, Work.andThen, h.result]
  cases w.result with
  | error e => exact ⟨rfl, h.tree⟩
  | ok a => exact ⟨(hnext a).result, (hnext a).tree⟩

end Work

namespace Log

variable {settings : ScanSettings} {S : Loc → Prop} {t u : Tree} {log q : Path} {source l m : Loc}

/-! ## What is written -/

theorem writes_writePayloads (settings : ScanSettings) (log q : Path) (source : Loc) (t : Tree) :
    t.Writes q (writePayloads settings log q source t).tree := by
  unfold writePayloads
  split
  · exact .refl t q
  · next hc => exact .commit hc _

theorem writes_writeIndex (q : Path) (paths : SortedSet Text) (t : Tree) :
    t.Writes q (writeIndex q paths t).tree := by
  unfold writeIndex
  split
  · exact .refl t q
  · next hc => exact .commit hc _

/-- Processing a log writes at the path of its payload file and then at that of its index. -/
theorem exists_writes_process (settings : ScanSettings) (t : Tree) (log : Path) :
    ∃ u, t.Writes (Outputs.ofLog log).ljson u ∧
      u.Writes (Outputs.ofLog log).idx (process settings t log).tree := by
  cases hopen : t.openRead log with
  | error e =>
    rw [process_of_openRead_error settings hopen]
    exact ⟨t, .refl t _, .refl t _⟩
  | ok source =>
    rw [process_of_openRead settings hopen]
    refine ⟨_, writes_writePayloads settings log _ source t, ?_⟩
    cases hr : (writePayloads settings log (Outputs.ofLog log).ljson source t).result with
    | error e =>
      rw [Work.andThen_of_error hr]
      exact .refl _ _
    | ok s =>
      rw [Work.andThen_of_ok hr, Work.tree_after, tree_finish]
      exact writes_writeIndex _ _ _

theorem isLinkFree_process (settings : ScanSettings) (log : Path) (ht : t.IsLinkFree) :
    (process settings t log).tree.IsLinkFree := by
  obtain ⟨u, hu, hv⟩ := exists_writes_process settings t log
  exact hv.isLinkFree (hu.isLinkFree ht)

theorem sameDirs_process (settings : ScanSettings) (t : Tree) (log : Path) :
    SameDirs t (process settings t log).tree := by
  obtain ⟨u, hu, hv⟩ := exists_writes_process settings t log
  exact hu.sameDirs.trans hv.sameDirs

/-- Processing a log leaves no devices where another one has its outputs. -/
theorem isPlainFor_process (settings : ScanSettings) (other : Path) (ht : t.IsPlainFor log) :
    (process settings t other).tree.IsPlainFor log := by
  obtain ⟨u, hu, hv⟩ := exists_writes_process settings t other
  exact (ht.of_writes hu).of_writes hv

/-- All places but those of the outputs are as before. -/
theorem entryAt_process (settings : ScanSettings) (ht : t.IsLinkFree) (hlog : log.IsNormal)
    (hl : m ≠ t.locOf (Outputs.ofLog log).ljson) (hm : m ≠ t.locOf (Outputs.ofLog log).idx) :
    (process settings t log).tree.entryAt m = t.entryAt m := by
  obtain ⟨u, hu, hv⟩ := exists_writes_process settings t log
  rw [hv.entryAt_eq fun h => ?_, hu.entryAt_eq fun h => ?_]
  · exact hl (locate_eq_some_of_isNormal ht (isEnding_ljson.isNormal hlog) h)
  · rw [hu.locate_eq] at h
    exact hm (locate_eq_some_of_isNormal ht (isEnding_idx.isNormal hlog) h)

/-! ## What it depends on -/

theorem writePayloads_of_alike (settings : ScanSettings) (log : Path) (ht : t.IsLinkFree)
    (hq : q.IsNormal) (h : Tree.Alike S t u) (hS : Covers S t q) (hsource : S source) :
    Work.Alike S (writePayloads settings log q source t)
      (writePayloads settings log q source u) := by
  rw [writePayloads, writePayloads]
  obtain ⟨e, hc, hc'⟩ | ⟨t', u', l, hc, hc', hl, h'⟩ := create_of_alike ht hq h hS
  · rw [hc, hc']
    exact ⟨rfl, h⟩
  · rw [hc, hc']
    simp only [h'.sourceAt_eq hsource, h'.sinkAt_eq (hl l (List.suffix_refl l))]
    exact ⟨rfl, h'.commit hl _⟩

theorem writeIndex_of_alike (paths : SortedSet Text) (ht : t.IsLinkFree) (hq : q.IsNormal)
    (h : Tree.Alike S t u) (hS : Covers S t q) :
    Work.Alike S (writeIndex q paths t) (writeIndex q paths u) := by
  rw [writeIndex, writeIndex]
  obtain ⟨e, hc, hc'⟩ | ⟨t', u', l, hc, hc', hl, h'⟩ := create_of_alike ht hq h hS
  · rw [hc, hc']
    exact ⟨rfl, h⟩
  · rw [hc, hc']
    simp only [h'.sinkAt_eq (hl l (List.suffix_refl l))]
    exact ⟨rfl, h'.commit hl _⟩

/-- The places that lead to a log or to one of its outputs. -/
def footprint (t : Tree) (log : Path) (m : Loc) : Prop :=
  ∃ p ∈ [log, (Outputs.ofLog log).ljson, (Outputs.ofLog log).idx], m <:+ t.locOf p

/-- A log comes to the same in two trees that look alike at its footprint, and they still look
alike there afterwards. -/
theorem process_of_alike (settings : ScanSettings) (ht : t.IsLinkFree) (hlog : log.IsNormal)
    (h : Tree.Alike (footprint t log) t u) :
    Work.Alike (footprint t log) (process settings t log) (process settings u log) := by
  have hcovers {p : Path} (hp : p ∈ [log, (Outputs.ofLog log).ljson, (Outputs.ofLog log).idx]) :
      Covers (footprint t log) t p := fun m hm => ⟨p, hp, hm⟩
  have hopens := openRead_eq_of_alike ht hlog h (hcovers (by simp))
  cases hopen : t.openRead log with
  | error e =>
    rw [process_of_openRead_error settings hopen,
      process_of_openRead_error settings (hopens.trans hopen)]
    exact ⟨rfl, h⟩
  | ok source =>
    rw [process_of_openRead settings hopen, process_of_openRead settings (hopens.trans hopen)]
    have hsource : footprint t log source :=
      openRead_eq_ok ht hlog hopen ▸ (hcovers (by simp)).locOf
    have hwrites := writes_writePayloads settings log (Outputs.ofLog log).ljson source t
    have hw := writePayloads_of_alike settings log ht (isEnding_ljson.isNormal hlog) h
      (hcovers (p := (Outputs.ofLog log).ljson) (by simp)) hsource
    refine hw.andThen fun summary => ?_
    have hidx : Covers (footprint t log)
        (writePayloads settings log (Outputs.ofLog log).ljson source t).tree
        (Outputs.ofLog log).idx := by
      intro m hm
      rw [locOf_congr hwrites.sameDirs.workDir.symm] at hm
      exact hcovers (by simp) m hm
    have hi := writeIndex_of_alike summary.storePaths (hwrites.isLinkFree ht)
      (isEnding_idx.isNormal hlog) hw.tree hidx
    exact hi.andThen fun n => ⟨rfl, hi.tree⟩

end Log

end StoreLog
