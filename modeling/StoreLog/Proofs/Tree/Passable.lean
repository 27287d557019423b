-- SUMMARY: When a directory can be made.
import StoreLog.Proofs.Tree.Directories

/-!
# Making directories with nothing in the way

Where each place on the way of a path is a directory or free to become one, the directory
of the path is made, and those around it that are missing before it.
-/

namespace StoreLog.Tree

variable {t u : Tree} {aim : Aim} {start l : Loc} {c : Name} {cs ds : List Name} {p : Path}
  {ways : List Name → Prop} {around : Tree → Tree × Except OsError Unit}

/-! ## Ways -/

/-- All places on a way are directories. The components are given from the inside out. -/
def IsPaved (t : Tree) (start : Loc) (cs : List Name) : Prop :=
  ∀ ds, ds <:+ cs → t.entryAt (ds ++ start) = some .dir

/-- All places on a way are directories, or free and can become one. The components are given
from the inside out. -/
structure IsPassable (t : Tree) (start : Loc) (cs : List Name) : Prop where
  isDir_start : t.entryAt start = some .dir
  isName : ∀ c ∈ cs, IsName c
  free : ∀ ds, ds <:+ cs → t.entryAt (ds ++ start) = none ∨ t.entryAt (ds ++ start) = some .dir

theorem IsPaved.cons (h : t.IsPaved start cs) (hc : t.entryAt (c :: (cs ++ start)) = some .dir) :
    t.IsPaved start (c :: cs) := by
  intro ds hds
  obtain rfl | hds := List.suffix_cons_iff.1 hds
  · exact hc
  · exact h ds hds

theorem IsPaved.of_keeps (hp : t.IsPaved start cs) (h : Keeps t u) : u.IsPaved start cs :=
  fun ds hds => h.entryAt_eq_some _ _ (hp ds hds)

theorem IsPassable.tail (h : t.IsPassable start (c :: cs)) : t.IsPassable start cs where
  isDir_start := h.isDir_start
  isName d hd := h.isName d (List.mem_cons_of_mem c hd)
  free ds hds := h.free ds (hds.trans (List.suffix_cons c cs))

theorem IsPassable.of_addsDirs (hp : t.IsPassable start cs) (h : AddsDirs ways l t u) :
    u.IsPassable start cs where
  isDir_start := h.entryAt_eq_some _ _ hp.isDir_start
  isName := hp.isName
  free ds hds := by
    obtain hnone | hdir := hp.free ds hds
    · exact (h.added _ hnone).imp_right fun ⟨_, _, hleads⟩ => hleads.isDir
    · exact .inr (h.entryAt_eq_some _ _ hdir)

/-- A way through directories goes on from the last one of them. -/
theorem stride_of_isPaved (h : t.IsPaved start cs) (hname : ∀ c ∈ cs, IsName c)
    (hds : ds ≠ [[]]) : t.stride aim start (cs.reverse ++ ds) = t.stride aim (cs ++ start) ds := by
  induction cs generalizing ds with
  | nil => rfl
  | cons c cs ih =>
    rw [List.forall_mem_cons] at hname
    have htail : t.IsPaved start cs := fun es hes => h es (hes.trans (List.suffix_cons c cs))
    have hcds : c :: ds ≠ [[]] := hname.1.cons_ne ds
    have hc : t.entryAt (c :: (cs ++ start)) = some .dir := h _ (List.suffix_refl _)
    rw [List.reverse_cons, List.append_assoc, List.singleton_append, ih htail hname.2 hcds,
      stride_of_name ⟨htail cs (List.suffix_refl _), hds⟩ hname.1, hc]
    rfl

/-- What is not yet a way through directories stops where the first of them is missing. -/
theorem IsPassable.isPaved_or (h : t.IsPassable start cs) (aim : Aim) (hds : ds ≠ [])
    (hlast : ds ≠ [[]]) :
    t.IsPaved start cs ∨ t.stride aim start (cs.reverse ++ ds) = .error .notFound := by
  induction cs generalizing ds with
  | nil =>
    refine .inl fun es hes => ?_
    rw [List.suffix_nil.1 hes]
    exact h.isDir_start
  | cons c cs ih =>
    have hname := h.isName c List.mem_cons_self
    have hcds : c :: ds ≠ [[]] := hname.cons_ne ds
    rw [List.reverse_cons, List.append_assoc, List.singleton_append]
    obtain hpaved | hstop := ih h.tail (List.cons_ne_nil c ds) hcds
    · rw [stride_of_isPaved hpaved h.tail.isName hcds,
        stride_of_name ⟨hpaved cs (List.suffix_refl _), hlast⟩ hname]
      obtain hnone | hdir := h.free (c :: cs) (List.suffix_refl _)
      · rw [List.cons_append] at hnone
        simp [hnone, hds]
      · exact .inl (hpaved.cons hdir)
    · exact .inr hstop

/-! ## Making directories -/

theorem walk_of_stride {q : Place} (h : t.stride aim start cs = .ok (.place q)) :
    t.walk aim maxLinks start cs = .ok q :=
  walk_eq_ok_iff_or.2 (.inl h)

/-- In the directory around it, a directory is there or is made. -/
theorem makeDirOrKeep_of_isPaved (hpaved : t.IsPaved start cs) (h : t.IsPassable start (c :: cs)) :
    ∃ u, t.makeDirOrKeep start (c :: cs).reverse = (u, .ok ()) ∧ u.IsPaved start (c :: cs) := by
  have hname := h.isName c List.mem_cons_self
  have hgoes : t.GoesOn (cs ++ start) [] := ⟨hpaved cs (List.suffix_refl _), by simp⟩
  have hstride (aim : Aim) :
      t.stride aim start (c :: cs).reverse = t.stride aim (cs ++ start) [c] := by
    rw [List.reverse_cons, stride_of_isPaved hpaved h.tail.isName (hname.cons_ne [])]
  obtain hnone | hdir := h.free (c :: cs) (List.suffix_refl _)
  · rw [List.cons_append] at hnone
    have hw : t.walk .entry maxLinks start (c :: cs).reverse = .ok (.vacant (cs ++ start) c) :=
      walk_of_stride (by rw [hstride, stride_of_name hgoes hname, hnone]; rfl)
    refine ⟨t.put (c :: (cs ++ start)) .dir, ?_, ?_⟩
    · simp only [makeDirOrKeep, makeDir, hw]
    · refine (hpaved.of_keeps (keeps_put hnone .dir)).cons ?_
      exact entryAt_put_self (hasRoom_of_entryAt_eq_none hgoes.1 hnone) .dir
  · rw [List.cons_append] at hdir
    have hw (aim : Aim) :
        t.walk aim maxLinks start (c :: cs).reverse = .ok (.found (c :: (cs ++ start))) :=
      walk_of_stride (by rw [hstride, stride_of_name hgoes hname, hdir]; rfl)
    refine ⟨t, ?_, hpaved.cons hdir⟩
    simp only [makeDirOrKeep, makeDir, isDirAt, hw, hdir, beq_self_eq_true, if_true]

theorem makeAfter_of_isPassable (h : t.IsPassable start (c :: cs))
    (hadds : AddsDirs ways l t (around t).1)
    (haround : ∃ u, around t = (u, .ok ()) ∧ u.IsPaved start cs) :
    ∃ u, t.makeAfter start (c :: cs).reverse around = (u, .ok ()) ∧ u.IsPaved start (c :: cs) := by
  by_cases hmake : t.makeDir start (c :: cs).reverse = .error .notFound
  · obtain ⟨v, hv, hpaved⟩ := haround
    rw [hv] at hadds
    simp only [makeAfter, hmake, hv]
    exact makeDirOrKeep_of_isPaved hpaved (h.of_addsDirs hadds)
  · -- Only where the directory around it is missing, a directory is not found.
    have hpaved : t.IsPaved start cs := by
      have hone : [c] ≠ [[]] := (h.isName c List.mem_cons_self).cons_ne []
      refine (h.tail.isPaved_or .entry (List.cons_ne_nil c []) hone).resolve_right
        fun hstop => hmake ?_
      rw [List.reverse_cons, makeDir, walk, hstop]
    have hkeep : t.makeAfter start (c :: cs).reverse around =
        t.makeDirOrKeep start (c :: cs).reverse := by
      unfold makeAfter
      split
      · next hstop => exact absurd hstop hmake
      · rfl
    rw [hkeep]
    exact makeDirOrKeep_of_isPaved hpaved h

theorem makeAll_of_isPassable (h : t.IsPassable start cs) :
    ∃ u, makeAll start cs t = (u, .ok ()) ∧ u.IsPaved start cs := by
  induction cs with
  | nil =>
    refine ⟨t, rfl, fun ds hds => ?_⟩
    rw [List.suffix_nil.1 hds]
    exact h.isDir_start
  | cons c cs ih => exact makeAfter_of_isPassable h (addsDirs_makeAll start cs t) (ih h.tail)

/-- Names are no dots, so they are all components of the directories around. -/
theorem componentsAround_of_isName (h : ∀ c ∈ p.components, IsName c) :
    componentsAround p = p.components.reverse.tail := by
  rw [componentsAround, List.filter_eq_self.2 fun c hc => ?_]
  obtain ⟨-, hdot, -⟩ := Path.isFileName_iff.1 (h c hc).1
  simpa using hdot

/-- A directory is made if nothing is in the way. -/
theorem ensureDir_of_isPassable (hfault : fault? p = none)
    (h : t.IsPassable (startOf p t.workDir) p.components.reverse) :
    (t.ensureDir p).result = .ok () := by
  have hp : p ≠ [] := by
    rintro rfl
    cases hfault
  have haround : componentsAround p = p.components.reverse.tail :=
    componentsAround_of_isName fun c hc => h.isName c (List.mem_reverse.2 hc)
  unfold ensureDir
  split
  · rfl
  next hdir =>
  rw [makePath_eq hp hfault, haround]
  cases hcs : p.components.reverse with
  | nil =>
    have hnil : p.components = [] := List.reverse_eq_nil_iff.1 hcs
    have hleads : t.LeadsToDir (startOf p t.workDir) p.components (startOf p t.workDir) := by
      rw [hnil]
      exact ⟨walk_of_stride rfl, h.isDir_start⟩
    exact absurd (isDir_of_leadsToDir hfault hleads) (by simpa [hp] using hdir)
  | cons c cs =>
    rw [hcs] at h
    obtain ⟨u, hu, -⟩ :=
      makeAfter_of_isPassable h (addsDirs_makeAll _ cs t) (makeAll_of_isPassable h.tail)
    rw [← hcs, List.reverse_reverse] at hu
    simp only [List.tail_cons, hu, Except.mapError]

/-- What it leaves of a tree to make sure of the directory of a path. -/
structure EnsuresDir (t : Tree) (p : Path) (w : Work IoError Unit) : Prop where
  /-- Whatever comes of it, all is as it was but for directories on the way of the path. -/
  addsDirs : AddsDirs p.IsLeading (startOf p t.workDir) t w.tree
  resolves : p ≠ [] → w.result = .ok () →
    ∃ l, w.tree.resolve .target p = .ok (.found l) ∧ w.tree.entryAt l = some .dir
  /-- Doing it once more does nothing. -/
  again : w.result = .ok () → w.tree.ensureDir p = ⟨w.tree, [], .ok ()⟩
  result_ok : fault? p = none → t.IsPassable (startOf p t.workDir) p.components.reverse →
    w.result = .ok ()

theorem ensuresDir (t : Tree) (p : Path) : EnsuresDir t p (t.ensureDir p) where
  addsDirs := addsDirs_ensureDir t p
  resolves hp hok := isDir_iff.1 (isDir_of_ensureDir hp hok)
  again := ensureDir_again
  result_ok := ensureDir_of_isPassable

-- A device is in the way, after a directory has been made that stays.
example :
    let w := fresh.ensureDir (Path.ofText "a/../../dev/null/b".toList)
    let a := Path.ofText "a".toList :: fresh.workDir
    w.result = .error (.os .alreadyExists) ∧ fresh.entryAt a = none ∧
      w.tree.entryAt a = some .dir := by
  decide +kernel

end StoreLog.Tree
