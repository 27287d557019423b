-- SUMMARY: What putting an entry changes, and the names of files in trees without links.
import StoreLog.Proofs.Tree.Walk
import StoreLog.Tree.Files

/-!
# Files of a tree

What putting an entry changes, and what the names of files stand for in a tree without
links: there a path is the name of what stands in the directory to which it leads.
-/

namespace StoreLog.Tree

variable {t u : Tree} {l m : Loc} {q : Path} {e : Entry}

/-! ## Putting an entry -/

/-- Where something is put that is no directory, something else can be put. -/
theorem HasRoom.put (h : t.HasRoom l) (he : e ≠ .dir) : (t.put l e).HasRoom l where
  isDir_tail := by
    have hne : l.tail ≠ l := fun heq => h.not_dir (heq ▸ h.isDir_tail)
    rw [entryAt_put_ne hne, h.isDir_tail]
  not_dir := by
    rw [entryAt_put_self h]
    exact fun hdir => he (Option.some.inj hdir)

theorem put_put (he : e ≠ .dir) (l : Loc) (f : Entry) : (t.put l e).put l f = t.put l f := by
  by_cases h : t.HasRoom l
  · refine ext (by simp) fun m => ?_
    by_cases hm : m = l
    · rw [hm, entryAt_put_self (h.put he), entryAt_put_self h]
    · rw [entryAt_put_ne hm, entryAt_put_ne hm, entryAt_put_ne hm]
  · rw [put_of_not_hasRoom h]

/-- What is there already is put in vain. -/
theorem put_of_entryAt (h : t.entryAt l = some e) : t.put l e = t := by
  by_cases hroom : t.HasRoom l
  · refine ext (by simp) fun m => ?_
    by_cases hm : m = l
    · rw [hm, entryAt_put_self hroom, h]
    · exact entryAt_put_ne hm e
  · exact put_of_not_hasRoom hroom e

theorem entryAt_put_eq_or (t : Tree) (l : Loc) (e : Entry) (m : Loc) :
    (t.put l e).entryAt m = t.entryAt m ∨ (t.put l e).entryAt m = some e := by
  by_cases h : t.HasRoom l
  · by_cases hm : m = l
    · exact .inr (hm ▸ entryAt_put_self h e)
    · exact .inl (entryAt_put_ne hm e)
  · rw [put_of_not_hasRoom h]
    exact .inl rfl

theorem sameDirs_put (t : Tree) (l : Loc) (he : e ≠ .dir) : SameDirs t (t.put l e) where
  workDir := (workDir_put t l e).symm
  isDir m := by
    by_cases h : t.HasRoom l
    · by_cases hm : m = l
      · rw [hm, entryAt_put_self h]
        exact iff_of_false h.not_dir fun hdir => he (Option.some.inj hdir)
      · rw [entryAt_put_ne hm]
    · rw [put_of_not_hasRoom h]

theorem sameDirs_put_file (t : Tree) (l : Loc) (content : Bytes) (x : Bool) :
    SameDirs t (t.put l (.file content x)) :=
  sameDirs_put t l nofun

theorem reaches_put_file {content : Bytes} {x : Bool} :
    (t.put l (.file content x)).Reaches q m ↔ t.Reaches q m :=
  (reaches_congr (sameDirs_put_file t l content x)).symm

theorem IsLinkFree.put (ht : t.IsLinkFree) (l : Loc) (he : e.isLink = false) :
    (t.put l e).IsLinkFree := by
  intro m target hlink
  obtain hm | hm := entryAt_put_eq_or t l e m
  · exact ht m target (hm ▸ hlink)
  · obtain rfl := Option.some.inj (hm.symm.trans hlink)
    cases he

theorem isLinkFree_fresh : fresh.IsLinkFree := by
  have hempty (workDir : Loc) : (empty workDir).IsLinkFree := by
    intro l target hlink
    by_cases hl : l = []
    · simp [hl] at hlink
    · simp [entryAt_of_ne_root hl, empty] at hlink
  exact ((((hempty _).put _ rfl).put _ rfl).put _ rfl).put _ rfl

/-! ## Files -/

/-- What a path is the name of, if of anything. -/
def lookAt (t : Tree) (q : Path) : Option Entry :=
  match t.resolve .entry q with
  | .ok (.found l) => t.entryAt l
  | _ => none

/-- A path is the name of a file with the given content. -/
def HasFile (t : Tree) (q : Path) (content : Bytes) : Prop :=
  ∃ x, t.lookAt q = some (.file content x)

/-- All places but the one with the name of a path are as before. -/
def ChangesOnly (t u : Tree) (q : Path) : Prop :=
  u.workDir = t.workDir ∧
    ∃ l, u.resolve .entry q = .ok (.found l) ∧ ∀ m, m ≠ l → u.entryAt m = t.entryAt m

variable {content : Bytes} {x : Bool}

theorem resolve_of_reaches (ht : t.IsLinkFree) (hq : Path.isFileName (Path.leaf q) = true)
    (h : t.Reaches q l) (hl : t.entryAt l ≠ none) (aim : Aim) :
    t.resolve aim q = .ok (.found l) :=
  (resolve_eq_ok_iff ht hq).2 ⟨l, h, (placeAt_eq_found hl).symm⟩

/-- The source of a place depends on what is there alone. -/
theorem sourceAt_congr (h : t.entryAt l = u.entryAt l) : t.sourceAt l = u.sourceAt l := by
  rw [sourceAt, sourceAt, h]

theorem lookAt_eq (ht : t.IsLinkFree) (hq : Path.isFileName (Path.leaf q) = true)
    (h : t.Reaches q l) : t.lookAt q = t.entryAt l := by
  have hr : t.resolve .entry q = .ok (t.placeAt l) := (resolve_eq_ok_iff ht hq).2 ⟨l, h, rfl⟩
  rw [lookAt, hr]
  cases l with
  | nil => rfl
  | cons c d =>
    simp only [placeAt, placeIn]
    cases he : t.entryAt (c :: d) <;> simp [he]

theorem lookAt_eq_some_iff (ht : t.IsLinkFree) (hq : Path.isFileName (Path.leaf q) = true) :
    t.lookAt q = some e ↔ ∃ l, t.Reaches q l ∧ t.entryAt l = some e := by
  constructor
  · intro h
    have hreaches : ∃ l, t.Reaches q l := by
      unfold lookAt at h
      split at h
      · next l hr =>
        obtain ⟨m, hm, -⟩ := (resolve_eq_ok_iff ht hq).1 hr
        exact ⟨m, hm⟩
      · cases h
    obtain ⟨l, hl⟩ := hreaches
    exact ⟨l, hl, lookAt_eq ht hq hl ▸ h⟩
  · rintro ⟨l, hl, he⟩
    exact (lookAt_eq ht hq hl).trans he

theorem hasFile_of_reaches (ht : t.IsLinkFree) (hq : Path.isFileName (Path.leaf q) = true)
    (h : t.Reaches q l) (hl : t.entryAt l = some (.file content x)) : t.HasFile q content :=
  ⟨x, (lookAt_eq ht hq h).trans hl⟩

/-- What a path names is the same in two trees that agree at its place. -/
theorem lookAt_congr (ht : t.IsLinkFree) (hu : u.IsLinkFree) (hs : SameDirs t u)
    (hq : Path.isFileName (Path.leaf q) = true)
    (h : ∀ l, t.Reaches q l → u.entryAt l = t.entryAt l) : u.lookAt q = t.lookAt q := by
  refine Option.ext fun e => ?_
  rw [lookAt_eq_some_iff hu hq, lookAt_eq_some_iff ht hq]
  refine exists_congr fun l => ?_
  rw [← reaches_congr hs]
  exact and_congr_right fun hl => by rw [h l hl]

/-! ## Open files -/

theorem commit_put (h : t.HasRoom l) (s : Sink) :
    (t.put l (.file content x)).commit l s = t.put l (.file s.written x) := by
  rw [commit, entryAt_put_self h]
  exact put_put (by simp) l _

theorem sinkAt_put (h : t.HasRoom l) : (t.put l (.file content x)).sinkAt l = .unlimited := by
  simp [sinkAt, entryAt_put_self h]

end StoreLog.Tree
