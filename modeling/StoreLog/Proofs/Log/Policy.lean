-- SUMMARY: Several logs under the two failure policies, position by position.
import Mathlib.Data.List.Range
import StoreLog.Proofs.Log.Process

/-!
# Failure policies

Under both policies, every log is processed on the tree that the logs before it
have left. When failures are kept, each position of the logs goes into one of the
two lists of the report. Stopping at the first failure makes no difference up to
it, and ends with its error and the tree that it has left.
-/

namespace StoreLog.Log

variable {settings : ScanSettings} {t : Tree} {log : Path} {logs : List Path} {s : ScanSummary}
  {e : Failure}

/-! ## The first log -/

theorem processAll_cons_ok (policy : FailurePolicy) (logs : List Path)
    (h : (process settings t log).result = .ok s) :
    processAll settings policy t (log :: logs) =
      ((processAll settings policy (process settings t log).tree logs).map
        (·.addProcessed log s)).after (process settings t log).events := by
  simp only [processAll, h]

theorem processAll_failFast_cons_error (logs : List Path)
    (h : (process settings t log).result = .error e) :
    processAll settings .failFast t (log :: logs) =
      ⟨(process settings t log).tree, (process settings t log).events, .error e⟩ := by
  simp only [processAll, h]

theorem processAll_keepGoing_cons_error (logs : List Path)
    (h : (process settings t log).result = .error e) :
    processAll settings .keepGoing t (log :: logs) =
      ((processAll settings .keepGoing (process settings t log).tree logs).map
        (·.addFailed log e)).after ((process settings t log).events ++ [.logFailed log e]) := by
  simp only [processAll, h]

/-- Every log is processed with success on the tree that those before it leave. -/
def SucceedInTurn (settings : ScanSettings) (t : Tree) : List Path → Prop
  | [] => True
  | log :: logs =>
    (∃ s, (process settings t log).result = .ok s) ∧
      SucceedInTurn settings (process settings t log).tree logs

theorem exists_map_eq_ok_iff {ε α β : Type} {r : Except ε α} {f : α → β} {p : β → Prop} :
    (∃ b, r.map f = .ok b ∧ p b) ↔ ∃ a, r = .ok a ∧ p (f a) := by
  cases r <;> simp [Except.map]

/-- Under both policies, nothing has failed exactly if every log succeeds in turn. -/
theorem exists_report_iff_succeedInTurn (settings : ScanSettings) (policy : FailurePolicy)
    (t : Tree) (logs : List Path) :
    (∃ report, (processAll settings policy t logs).result = .ok report ∧
      report.hasFailures = false) ↔ SucceedInTurn settings t logs := by
  induction logs generalizing t with
  | nil => exact iff_of_true ⟨{}, rfl, rfl⟩ trivial
  | cons log logs ih =>
    rw [SucceedInTurn, ← ih]
    cases h : (process settings t log).result with
    | ok s =>
      rw [processAll_cons_ok _ _ h, Work.result_after, Work.result_map, exists_map_eq_ok_iff]
      exact (and_iff_right ⟨s, rfl⟩).symm
    | error e =>
      refine iff_of_false ?_ (fun ⟨⟨s, hs⟩, _⟩ => by cases hs)
      cases policy with
      | failFast =>
        rw [processAll_failFast_cons_error _ h]
        rintro ⟨report, hreport, -⟩
        cases hreport
      | keepGoing =>
        rw [processAll_keepGoing_cons_error _ h, Work.result_after, Work.result_map,
          exists_map_eq_ok_iff]
        rintro ⟨report, -, hnone⟩
        cases hnone

/-! ## Positions -/

/-- The tree that the first `n` logs leave when failures are kept. -/
def treeAfter (settings : ScanSettings) (t : Tree) (logs : List Path) (n : Nat) : Tree :=
  (processAll settings .keepGoing t (logs.take n)).tree

/-- The log at a position, and what comes of it on the tree that those before it leave. -/
def resultAt (settings : ScanSettings) (t : Tree) (logs : List Path) (i : Nat) :
    Option (Path × Except Failure ScanSummary) :=
  logs[i]?.map fun log => (log, (process settings (treeAfter settings t logs i) log).result)

theorem treeAfter_succ (n : Nat) :
    treeAfter settings t (log :: logs) (n + 1) =
      treeAfter settings (process settings t log).tree logs n := by
  rw [treeAfter, treeAfter, List.take_succ_cons]
  cases h : (process settings t log).result with
  | ok s => rw [processAll_cons_ok _ _ h, Work.tree_after, Work.tree_map]
  | error e => rw [processAll_keepGoing_cons_error _ h, Work.tree_after, Work.tree_map]

/-- What the logs up to a position leave is what the log there makes of what those before it
leave. -/
theorem treeAfter_of_getElem? {n : Nat} (h : logs[n]? = some log) :
    treeAfter settings t logs (n + 1) =
      (process settings (treeAfter settings t logs n) log).tree := by
  induction logs generalizing t n with
  | nil => cases h
  | cons first logs ih =>
    rw [treeAfter_succ]
    cases n with
    | zero =>
      obtain rfl : first = log := Option.some.inj h
      rfl
    | succ n =>
      rw [treeAfter_succ]
      exact ih h

/-- Behind the last log, nothing more is done. -/
theorem treeAfter_of_getElem?_eq_none {n : Nat} (h : logs[n]? = none) :
    treeAfter settings t logs (n + 1) = treeAfter settings t logs n := by
  have hn := List.getElem?_eq_none_iff.1 h
  rw [treeAfter, treeAfter, List.take_of_length_le hn,
    List.take_of_length_le (Nat.le_succ_of_le hn)]

/-- What is so at a position, and what each log from there on keeps so, is so at all later
positions. -/
theorem treeAfter_induct {P : Tree → Prop} {i n : Nat} (hin : i ≤ n)
    (h : P (treeAfter settings t logs i))
    (hstep : ∀ j log, i ≤ j → logs[j]? = some log → P (treeAfter settings t logs j) →
      P (process settings (treeAfter settings t logs j) log).tree) :
    P (treeAfter settings t logs n) := by
  induction n, hin using Nat.le_induction with
  | base => exact h
  | succ j hj ih =>
    cases hlog : logs[j]? with
    | none => rwa [treeAfter_of_getElem?_eq_none hlog]
    | some log =>
      rw [treeAfter_of_getElem? hlog]
      exact hstep j log hj hlog ih

theorem resultAt_of_getElem? {i : Nat} (h : logs[i]? = some log) :
    resultAt settings t logs i =
      some (log, (process settings (treeAfter settings t logs i) log).result) := by
  rw [resultAt, h, Option.map_some]

theorem resultAt_eq_some {i : Nat} {r : Except Failure ScanSummary}
    (h : resultAt settings t logs i = some (log, r)) :
    logs[i]? = some log ∧ (process settings (treeAfter settings t logs i) log).result = r := by
  obtain ⟨log', hlog, heq⟩ := Option.map_eq_some_iff.1 h
  obtain ⟨rfl, hr⟩ := Prod.mk.inj heq
  exact ⟨hlog, hr⟩

theorem resultAt_zero :
    resultAt settings t (log :: logs) 0 = some (log, (process settings t log).result) := rfl

theorem resultAt_succ (i : Nat) :
    resultAt settings t (log :: logs) (i + 1) =
      resultAt settings (process settings t log).tree logs i := by
  rw [resultAt, resultAt, List.getElem?_cons_succ, treeAfter_succ]

theorem map_resultAt_succ (is : List Nat) :
    (is.map (· + 1)).map (resultAt settings t (log :: logs)) =
      is.map (resultAt settings (process settings t log).tree logs) := by
  rw [List.map_map]
  exact List.map_congr_left fun i _ => resultAt_succ i

/-- A report divides the positions of the logs, in order, into those of its processed
and those of its failed logs. -/
structure Report.Divides (settings : ScanSettings) (t : Tree) (logs : List Path)
    (report : Report) (processedAt failedAt : List Nat) : Prop where
  processedAt_sorted : processedAt.Pairwise (· < ·)
  failedAt_sorted : failedAt.Pairwise (· < ·)
  perm : (processedAt ++ failedAt).Perm (List.range logs.length)
  processed : report.processed.map (fun p => some (p.1, .ok p.2)) =
    processedAt.map (resultAt settings t logs)
  failed : report.failed.map (fun p => some (p.1, .error p.2)) =
    failedAt.map (resultAt settings t logs)

theorem Report.Divides.exists_resultAt {report : Report} {is js : List Nat}
    (hd : report.Divides settings t logs is js) (hmem : (log, s) ∈ report.processed) :
    ∃ i, resultAt settings t logs i = some (log, .ok s) := by
  have hresult : some (log, Except.ok s) ∈ is.map (resultAt settings t logs) := by
    rw [← hd.processed]
    exact List.mem_map.2 ⟨_, hmem, rfl⟩
  obtain ⟨i, -, hi⟩ := List.mem_map.1 hresult
  exact ⟨i, hi⟩

theorem pairwise_zero_cons_map_succ {is : List Nat} (h : is.Pairwise (· < ·)) :
    (0 :: is.map (· + 1)).Pairwise (· < ·) := by
  rw [List.pairwise_cons]
  refine ⟨fun i hi => ?_, List.pairwise_map.2 (h.imp Nat.succ_lt_succ)⟩
  obtain ⟨j, -, rfl⟩ := List.mem_map.1 hi
  exact Nat.succ_pos j

variable {report : Report} {is js : List Nat}

theorem Report.Divides.addProcessed (h : (process settings t log).result = .ok s)
    (hd : report.Divides settings (process settings t log).tree logs is js) :
    (report.addProcessed log s).Divides settings t (log :: logs) (0 :: is.map (· + 1))
      (js.map (· + 1)) where
  processedAt_sorted := pairwise_zero_cons_map_succ hd.processedAt_sorted
  failedAt_sorted := List.pairwise_map.2 (hd.failedAt_sorted.imp Nat.succ_lt_succ)
  perm := by
    rw [List.length_cons, List.range_succ_eq_map, List.cons_append, ← List.map_append]
    exact (hd.perm.map _).cons 0
  processed := by
    rw [List.map_cons, map_resultAt_succ, resultAt_zero, h, ← hd.processed]
    rfl
  failed := by
    rw [map_resultAt_succ, ← hd.failed]
    rfl

theorem Report.Divides.addFailed (h : (process settings t log).result = .error e)
    (hd : report.Divides settings (process settings t log).tree logs is js) :
    (report.addFailed log e).Divides settings t (log :: logs) (is.map (· + 1))
      (0 :: js.map (· + 1)) where
  processedAt_sorted := List.pairwise_map.2 (hd.processedAt_sorted.imp Nat.succ_lt_succ)
  failedAt_sorted := pairwise_zero_cons_map_succ hd.failedAt_sorted
  perm := by
    rw [List.length_cons, List.range_succ_eq_map]
    refine List.perm_middle.trans ?_
    rw [← List.map_append]
    exact (hd.perm.map _).cons 0
  processed := by
    rw [map_resultAt_succ, ← hd.processed]
    rfl
  failed := by
    rw [List.map_cons, map_resultAt_succ, resultAt_zero, h, ← hd.failed]
    rfl

/-! ## Both policies -/

/-- What stopping at the first failure comes to, by the report that keeping failures gives
and the positions of the failed logs in it. -/
def StopsAtFirst (settings : ScanSettings) (t : Tree) (logs : List Path) (report : Report)
    (failedAt : List Nat) : Prop :=
  let w := processAll settings .failFast t logs
  match report.failed, failedAt with
  | [], _ => w.result = .ok report ∧ w.tree = (processAll settings .keepGoing t logs).tree
  | (_, e) :: _, k :: _ => w.result = .error e ∧ w.tree = treeAfter settings t logs (k + 1)
  | _ :: _, [] => False

theorem StopsAtFirst.addProcessed (h : (process settings t log).result = .ok s)
    (hs : StopsAtFirst settings (process settings t log).tree logs report js) :
    StopsAtFirst settings t (log :: logs) (report.addProcessed log s) (js.map (· + 1)) := by
  have hk := processAll_cons_ok .keepGoing logs h
  have hf := processAll_cons_ok .failFast logs h
  obtain ⟨done, failed⟩ := report
  cases failed with
  | nil =>
    obtain ⟨hresult, htree⟩ := hs
    refine ⟨?_, ?_⟩
    · rw [hf, Work.result_after, Work.result_map, hresult]
      rfl
    · rw [hf, hk]
      exact htree
  | cons p rest =>
    cases js with
    | nil => exact hs.elim
    | cons k js =>
      obtain ⟨hresult, htree⟩ := hs
      refine ⟨?_, ?_⟩
      · rw [hf, Work.result_after, Work.result_map, hresult]
        rfl
      · rw [hf, treeAfter_succ]
        exact htree

theorem stopsAtFirst_addFailed (h : (process settings t log).result = .error e) :
    StopsAtFirst settings t (log :: logs) (report.addFailed log e) (0 :: js) := by
  have hf := processAll_failFast_cons_error logs h
  refine ⟨?_, ?_⟩
  · rw [hf]
  · rw [hf, treeAfter_succ]
    rfl

theorem exists_divides_stopsAtFirst (settings : ScanSettings) (t : Tree) (logs : List Path) :
    ∃ report is js, (processAll settings .keepGoing t logs).result = .ok report ∧
      report.Divides settings t logs is js ∧ StopsAtFirst settings t logs report js := by
  -- For every tree, since the other logs are processed on what the first one leaves.
  induction logs generalizing t with
  | nil =>
    refine ⟨{}, [], [], rfl, ⟨.nil, .nil, .refl _, rfl, rfl⟩, rfl, rfl⟩
  | cons log logs ih =>
    obtain ⟨report, is, js, hresult, hdivides, hstops⟩ := ih (process settings t log).tree
    cases h : (process settings t log).result with
    | ok s =>
      refine ⟨report.addProcessed log s, _, _, ?_, hdivides.addProcessed h,
        hstops.addProcessed h⟩
      rw [processAll_cons_ok _ _ h, Work.result_after, Work.result_map, hresult]
      rfl
    | error e =>
      refine ⟨report.addFailed log e, _, _, ?_, hdivides.addFailed h, stopsAtFirst_addFailed h⟩
      rw [processAll_keepGoing_cons_error _ h, Work.result_after, Work.result_map, hresult]
      rfl

/-- Where there is a report, it divides the logs, and the tree is what all of them leave. -/
theorem exists_divides_of_eq_ok {policy : FailurePolicy}
    (h : (processAll settings policy t logs).result = .ok report) :
    (∃ is js, report.Divides settings t logs is js) ∧
      (processAll settings policy t logs).tree = treeAfter settings t logs logs.length := by
  obtain ⟨report', is, js, hresult, hdivides, hstops⟩ :=
    exists_divides_stopsAtFirst settings t logs
  have hall : treeAfter settings t logs logs.length =
      (processAll settings .keepGoing t logs).tree := by
    rw [treeAfter, List.take_length]
  rw [hall]
  cases policy with
  | keepGoing =>
    obtain rfl := Except.ok.inj (hresult.symm.trans h)
    exact ⟨⟨is, js, hdivides⟩, rfl⟩
  | failFast =>
    obtain ⟨done, failed⟩ := report'
    cases failed with
    | nil =>
      obtain ⟨hsame, htree⟩ := hstops
      obtain rfl := Except.ok.inj (hsame.symm.trans h)
      exact ⟨⟨is, js, hdivides⟩, htree⟩
    | cons p failed =>
      cases js with
      | nil => exact hstops.elim
      | cons k js => cases hstops.1.symm.trans h

/-- Keeping failures always gives a report, which divides the logs. Stopping at the first
failure gives the same report and tree if nothing fails, and else the error of the first
failed log and the tree that the logs up to it leave. -/
theorem processAll_failFast_keepGoing (settings : ScanSettings) (t : Tree) (logs : List Path) :
    let keepGoing := processAll settings .keepGoing t logs
    let failFast := processAll settings .failFast t logs
    ∃ report processedAt failedAt,
      keepGoing.result = .ok report ∧
      report.Divides settings t logs processedAt failedAt ∧
      ((∃ r, failFast.result = .ok r) ↔ report.failed = []) ∧
      (report.failed = [] → failFast.result = .ok report ∧ failFast.tree = keepGoing.tree) ∧
      (∀ log e rest, report.failed = (log, e) :: rest →
        failFast.result = .error e ∧ ∃ k, failedAt.head? = some k ∧
          failFast.tree = (processAll settings .keepGoing t (logs.take (k + 1))).tree) := by
  intro keepGoing failFast
  obtain ⟨report, is, js, hresult, hdivides, hstops⟩ :=
    exists_divides_stopsAtFirst settings t logs
  refine ⟨report, is, js, hresult, hdivides, ?_⟩
  obtain ⟨done, failed⟩ := report
  cases failed with
  | nil => exact ⟨⟨fun _ => rfl, fun _ => ⟨_, hstops.1⟩⟩, fun _ => hstops, nofun⟩
  | cons p failed =>
    cases js with
    | nil => exact hstops.elim
    | cons k js =>
      obtain ⟨herror, htree⟩ := hstops
      have hok : ¬∃ r, failFast.result = .ok r := by
        rintro ⟨r, hr⟩
        rw [herror] at hr
        cases hr
      refine ⟨⟨fun h => absurd h hok, nofun⟩, nofun, fun log e rest h => ?_⟩
      obtain ⟨rfl, -⟩ := List.cons.inj h
      exact ⟨herror, k, rfl, htree⟩

end StoreLog.Log
